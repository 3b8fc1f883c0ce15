import SqlComposer.CommandLine.Options
import SqlComposer.Proofs.Logged

/-!
# Flags of the program

Whatever the arguments of a command line are, each flag that is read from them is one of the flags
of the program. So the clauses that they ask for have no other keywords than those of its clause
flags.
-/

namespace SqlComposer.CommandLine

/-- The keyword of a clause flag. -/
def Purpose.keyword? : Purpose → Option Text
  | .clause keyword => some keyword
  | _ => none

/-- The keywords of the clause flags. -/
def clauseKeywords : List Text :=
  flags.filterMap (·.purpose.keyword?)

/-! ## Arguments -/

/-- A flag with a spelling is one of the flags. -/
theorem mem_flags_of_mem_spellings {spelling : Text} {f : Flag} (h : (spelling, f) ∈ spellings) :
    f ∈ flags := by
  obtain ⟨f', hmem, hspelling⟩ := List.mem_flatMap.mp h
  obtain ⟨_, -, heq⟩ := List.mem_map.mp hspelling
  cases heq
  exact hmem

/-- A flag that a spelling stands for is one of the flags. -/
theorem mem_flags_of_flag? {spelling : Text} {f : Flag} (h : flag? spelling = some f) :
    f ∈ flags := by
  obtain ⟨front, back, hspellings, -⟩ := List.lookup_eq_some_iff.mp h
  have hmem : (spelling, f) ∈ spellings := by
    rw [hspellings]
    simp
  exact mem_flags_of_mem_spellings hmem

/-- What an argument could mean are flags of the program. -/
theorem mem_flags_of_mem_candidates {t : Text} {c : Candidate} (h : c ∈ candidates t) :
    c.flag ∈ flags := by
  unfold candidates at h
  split at h
  all_goals
    obtain ⟨entry, hentry, rfl⟩ := List.mem_map.mp h
    exact mem_flags_of_mem_spellings (List.mem_filter.mp hentry).1

/-- The flag of an argument, if it has one, is one of the program. -/
def Argument.IsKnown : Argument → Prop
  | .flag f _ => f ∈ flags
  | _ => True

/-- The flags that the candidates for a text are classified as are known. -/
theorem isKnown_of_classifyCandidates {t : Text} {a : Argument}
    (h : classifyCandidates t = .ok a) : a.IsKnown := by
  unfold classifyCandidates at h
  split at h
  · next c hc =>
    cases h
    exact mem_flags_of_mem_candidates (hc ▸ List.mem_singleton_self c)
  · cases h
    split <;> trivial
  · cases h

/-- The flags that a text is classified as are known. -/
theorem isKnown_of_classify {t : Text} {a : Argument} (h : classify t = .ok a) : a.IsKnown := by
  unfold classify at h
  split at h
  · split at h
    · next f hflag =>
      cases h
      exact mem_flags_of_flag? hflag
    · dsimp only at h
      split at h
      · next f hflag =>
        cases h
        exact mem_flags_of_flag? hflag
      · exact isKnown_of_classifyCandidates h
  · cases h
    trivial

/-- All flags among arguments are flags of the program. -/
theorem isKnown_of_classifyAll {texts : List Text} {arguments : List Argument}
    (h : classifyAll texts = .ok arguments) : ∀ a ∈ arguments, a.IsKnown := by
  induction texts generalizing arguments with
  | nil =>
    cases h
    nofun
  | cons t rest ih =>
    unfold classifyAll at h
    split at h
    · cases h
      simp [Argument.IsKnown]
    · obtain ⟨first, hfirst, h⟩ := except_bind_eq_ok_iff.mp h
      obtain ⟨later, hlater, h⟩ := except_bind_eq_ok_iff.mp h
      cases h
      exact List.forall_mem_cons.mpr ⟨isKnown_of_classify hfirst, ih hlater⟩

/-! ## Groups -/

/-- All flags of a group are flags of the program. -/
structure Group.IsKnown (g : Group) : Prop where
  /-- The complete flags are. -/
  complete : ∀ s ∈ g.complete, s.flag ∈ flags
  /-- The flag that waits is. -/
  waiting : ∀ f ∈ g.waiting, f ∈ flags

/-- A group of one of the flags is known. -/
theorem Group.isKnown_single {f : Flag} (h : f ∈ flags) : (Group.single f).IsKnown := by
  unfold Group.single
  split <;> constructor <;> simp [h]

/-- A group of one of the flags with a value assigned is known. -/
theorem Group.isKnown_assigned {f : Flag} {value : Text} {g : Group} (hf : f ∈ flags)
    (h : Group.assigned f value = .ok g) : g.IsKnown := by
  unfold Group.assigned at h
  split at h <;> cases h
  constructor <;> simp [hf]

/-- One of the flags before a known group makes a known one. -/
theorem Group.IsKnown.after {f : Flag} {g : Group} (hf : f ∈ flags) (h : g.IsKnown) :
    (g.after f).IsKnown :=
  ⟨List.forall_mem_cons.mpr ⟨hf, h.complete⟩, h.waiting⟩

/-- The flags that are joined behind one of the flags are known. -/
theorem Group.isKnown_joined {f : Flag} {t : Text} {g : Group} (hf : f ∈ flags)
    (h : Group.joined f t = .ok g) : g.IsKnown := by
  induction t generalizing f g with
  | nil => exact isKnown_assigned hf h
  | cons c rest ih =>
    unfold Group.joined at h
    split at h
    · exact isKnown_assigned hf h
    · split at h
      · cases h
      · next next hnext =>
        cases h
        exact (isKnown_single (mem_flags_of_flag? hnext)).after hf
      · next next hnext _ =>
        obtain ⟨later, hlater, rfl⟩ := except_map_eq_ok_iff.mp h
        exact (ih (mem_flags_of_flag? hnext) hlater).after hf

/-- A group that begins with one of the flags is known. -/
theorem Group.isKnown_ofFlag {f : Flag} {attached : Attachment} {g : Group} (hf : f ∈ flags)
    (h : Group.ofFlag f attached = .ok g) : g.IsKnown := by
  cases attached with
  | nothing =>
    cases h
    exact isKnown_single hf
  | toShort t => exact isKnown_joined hf h
  | toLong t => exact isKnown_assigned hf h

/-! ## Options -/

namespace Options

/-- The clauses of options have keywords of clause flags. -/
def HasKeywords (o : Options) : Prop :=
  ∀ clause ∈ o.clauses, clause.1 ∈ clauseKeywords

/-- A flag of the program adds a clause only with a keyword of a clause flag. -/
theorem HasKeywords.act {o o' : Options} {s : GivenFlag} (ho : o.HasKeywords)
    (hs : s.flag ∈ flags) (h : o.act s = .ok o') : o'.HasKeywords := by
  unfold Options.act at h
  split at h
  · cases h
  · split at h
    · cases h
      exact ho
    · next t _ =>
      cases h
      cases hpurpose : s.flag.purpose with
      | clause keyword =>
        have hkeyword : keyword ∈ clauseKeywords :=
          List.mem_filterMap.mpr ⟨s.flag, hs, by rw [hpurpose]; rfl⟩
        exact List.forall_mem_append.mpr ⟨ho, List.forall_mem_singleton.mpr hkeyword⟩
      | _ => exact ho

/-- Flags act on options with keywords of clauses and leave such options. -/
theorem HasKeywords.foldlM_act {o o' : Options} {given : List GivenFlag} (ho : o.HasKeywords)
    (hgiven : ∀ s ∈ given, s.flag ∈ flags) (h : given.foldlM Options.act o = .ok o') :
    o'.HasKeywords := by
  induction given generalizing o with
  | nil =>
    cases h
    exact ho
  | cons s given ih =>
    rw [List.forall_mem_cons] at hgiven
    rw [List.foldlM_cons] at h
    obtain ⟨middle, hfirst, hrest⟩ := except_bind_eq_ok_iff.mp h
    exact ih (ho.act hgiven.1 hfirst) hgiven.2 hrest

/-- What collecting does with a flag: the flags that its argument holds act, and one that waits acts
with the value that follows it. -/
theorem exists_of_collect_flag {o o' : Options} {leftOver leftOver' : List Text} {f : Flag}
    {attached : Attachment} {rest : List Argument}
    (h : o.collect leftOver (.flag f attached :: rest) = .ok (o', leftOver')) :
    ∃ group middle, Group.ofFlag f attached = .ok group ∧
      ((group.waiting = none ∧ group.complete.foldlM Options.act o = .ok middle ∧
          middle.collect leftOver rest = .ok (o', leftOver')) ∨
        ∃ g t later, group.waiting = some g ∧ rest = .value t :: later ∧
          (group.complete ++ [⟨g, some t⟩] : List GivenFlag).foldlM Options.act o = .ok middle ∧
          middle.collect leftOver later = .ok (o', leftOver')) := by
  rw [Options.collect] at h
  obtain ⟨group, hgroup, h⟩ := except_bind_eq_ok_iff.mp h
  rw [except_mapError_eq_ok_iff] at hgroup
  cases hwaiting : group.waiting with
  | none =>
    simp only [hwaiting] at h
    obtain ⟨middle, hmiddle, h⟩ := except_bind_eq_ok_iff.mp h
    exact ⟨group, middle, hgroup, .inl ⟨hwaiting, hmiddle, h⟩⟩
  | some g =>
    simp only [hwaiting] at h
    match rest, h with
    | .value t :: later, h =>
      obtain ⟨middle, hmiddle, h⟩ := except_bind_eq_ok_iff.mp h
      exact ⟨group, middle, hgroup, .inr ⟨g, t, later, hwaiting, rfl, hmiddle, h⟩⟩

/-- Arguments with flags of the program add only such clauses. -/
theorem HasKeywords.collect {o o' : Options} {leftOver leftOver' : List Text}
    {arguments : List Argument} (ho : o.HasKeywords) (harguments : ∀ a ∈ arguments, a.IsKnown)
    (h : o.collect leftOver arguments = .ok (o', leftOver')) : o'.HasKeywords := by
  -- a flag that waits takes the next argument with it, so no induction on the tail will do
  match arguments with
  | [] =>
    cases h
    exact ho
  | .value _ :: _ | .unknown _ :: _ | .separator :: _ =>
    exact HasKeywords.collect ho (List.forall_mem_cons.mp harguments).2 h
  | .flag f attached :: rest =>
    obtain ⟨hf, hrest⟩ := List.forall_mem_cons.mp harguments
    obtain ⟨group, middle, hgroup, hcases⟩ := exists_of_collect_flag h
    have hknown := Group.isKnown_ofFlag hf hgroup
    rcases hcases with ⟨-, hact, hcollect⟩ | ⟨g, t, later, hwaiting, rfl, hact, hcollect⟩
    · exact HasKeywords.collect (ho.foldlM_act hknown.complete hact) hrest hcollect
    · have hgiven : ∀ s ∈ group.complete ++ [(⟨g, some t⟩ : GivenFlag)], s.flag ∈ flags :=
        List.forall_mem_append.mpr ⟨hknown.complete,
          List.forall_mem_singleton.mpr (hknown.waiting g hwaiting)⟩
      exact HasKeywords.collect (ho.foldlM_act hgiven hact) (List.forall_mem_cons.mp hrest).2
        hcollect
termination_by arguments.length

/-- Whatever the arguments are, the clauses of the options have keywords of clause flags. -/
theorem hasKeywords_of_ofArguments {arguments : List Text} {o : Options}
    (h : ofArguments arguments = .ok o) : o.HasKeywords := by
  obtain ⟨known, hknown, h⟩ := except_bind_eq_ok_iff.mp h
  obtain ⟨⟨o', leftOver⟩, hcollect, h⟩ := except_bind_eq_ok_iff.mp h
  have hnone : HasKeywords {} := nofun
  have ho' := hnone.collect (isKnown_of_classifyAll (except_mapError_eq_ok_iff.mp hknown)) hcollect
  cases leftOver with
  | nil =>
    cases h
    exact ho'
  | cons t leftOver => cases h

end Options

end SqlComposer.CommandLine
