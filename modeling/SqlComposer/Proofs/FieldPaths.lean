import SqlComposer.Template.Lookup
import SqlComposer.Proofs.Apart

/-!
# Paths of fields

The name of a field is the number or the name of an argument, and a path of steps behind it. A path
can go wrong in four ways; which one it is, and whether it is noticed, is said here of the text
alone: the steps before the fault must lead to a value, as otherwise that is what is missing.
-/

namespace SqlComposer

namespace Text

/-- The number that a value and the decimal digits behind it denote. -/
def valueFrom (value : Nat) (t : Text) : Nat :=
  (t.filterMap digitValue?).foldl (fun value digit => 10 * value + digit) value

/-- Further digits do not make a value smaller. -/
theorem le_valueFrom (value : Nat) (t : Text) : value ≤ valueFrom value t := by
  unfold valueFrom
  induction t.filterMap digitValue? generalizing value with
  | nil => exact le_rfl
  | cons digit digits ih => exact le_trans (by omega) (ih (10 * value + digit))

/-- The first digit is the next one of a value. -/
theorem valueFrom_cons {c : Char} {digit : Nat} (h : digitValue? c = some digit) (value : Nat)
    (t : Text) : valueFrom value (c :: t) = valueFrom (10 * value + digit) t := by
  rw [valueFrom, List.filterMap_cons_some h, List.foldl_cons, valueFrom]

/-- The number that the decimal digits at the start of a text denote. -/
def leadingValue (t : Text) : Nat :=
  numeralValue (t.takeWhile isDecimal)

/-- A text of digits has the value of its numeral. -/
theorem leadingValue_eq {t : Text} (h : ∀ c ∈ t, isDecimal c = true) :
    leadingValue t = numeralValue t := by
  rw [leadingValue, List.takeWhile_eq_self_iff.mpr h]

end Text

namespace FieldPath

/-! ## Numbers -/

/-- Digits are read up to the limit, which is noticed before a character that is no digit. -/
theorem indexFrom_eq {value : Nat} (h : value ≤ indexLimit) (t : Text) :
    indexFrom value t =
      if indexLimit < Text.valueFrom value (t.takeWhile Text.isDecimal) then .error .indexTooLarge
      else if t.all Text.isDecimal then .ok (some (Text.valueFrom value t)) else .ok none := by
  induction t generalizing value with
  | nil =>
    have hfits : ¬ indexLimit < Text.valueFrom value [] := not_lt.mpr h
    rw [List.takeWhile_nil, if_neg hfits]
    rfl
  | cons c t ih =>
    cases hdigit : Text.digitValue? c with
    | none =>
      have hdecimal : Text.isDecimal c = false := by rw [Text.isDecimal, hdigit]; rfl
      have hfits : ¬ indexLimit < Text.valueFrom value [] := not_lt.mpr h
      rw [indexFrom, hdigit, List.takeWhile_cons_of_neg (by simp [hdecimal]), if_neg hfits,
        List.all_cons, hdecimal]
      rfl
    | some digit =>
      have hdecimal : Text.isDecimal c = true := by rw [Text.isDecimal, hdigit]; rfl
      rw [indexFrom, hdigit, List.takeWhile_cons_of_pos hdecimal, Text.valueFrom_cons hdigit,
        Text.valueFrom_cons hdigit, List.all_cons, hdecimal, Bool.true_and]
      dsimp only
      split
      · next hlarge =>
        rw [if_pos (lt_of_lt_of_le hlarge (Text.le_valueFrom _ _))]
      · next hfits => exact ih (not_lt.mp hfits)

/-- A part of a path is a number when all its characters are digits. Its first digits must not
denote too large a number, whatever follows them. -/
theorem index?_eq (part : Text) :
    index? part =
      if indexLimit < Text.leadingValue part then .error .indexTooLarge
      else if !part.isEmpty && part.all Text.isDecimal then .ok (some (Text.numeralValue part))
      else .ok none := by
  cases part with
  | nil => rfl
  | cons c part =>
    rw [index?, indexFrom_eq (Nat.zero_le _)]
    rfl

/-- The numeral of a number up to the limit is read as the number. -/
theorem index?_ofNat {n : Nat} (h : n ≤ indexLimit) : index? (Text.ofNat n) = .ok (some n) := by
  have hdecimal : ∀ c ∈ Text.ofNat n, Text.isDecimal c = true :=
    fun c hc => Text.isDecimal_of_mem_ofNat hc
  have hempty : (Text.ofNat n).isEmpty = false := List.isEmpty_eq_false_iff.mpr Nat.toDigits_ne_nil
  rw [index?_eq, Text.leadingValue_eq hdecimal, Text.numeralValue_ofNat, if_neg (not_lt.mpr h),
    hempty, List.all_eq_true.mpr hdecimal]
  rfl

/-! ## Steps -/

/-- No digit begins a step. -/
theorem beginsStep_of_isDigit {c : Char} (h : c.isDigit = true) : beginsStep c = false := by
  simp only [beginsStep, Bool.or_eq_false_iff, beq_eq_false_iff_ne]
  constructor <;> rintro rfl <;> exact absurd h (by decide)

/-- Between brackets there is a number, or else a name. -/
theorem itemStep_eq (part : Text) :
    itemStep part =
      if indexLimit < Text.leadingValue part then .error .indexTooLarge
      else if part.isEmpty then .error .emptyName
      else if part.all Text.isDecimal then .ok (.item (Text.numeralValue part))
      else .ok (.entry part) := by
  rw [itemStep, index?_eq]
  split
  · rfl
  · cases part with
    | nil => rfl
    | cons c part =>
      cases hall : (c :: part).all Text.isDecimal <;> rfl

/-! ## Faults of paths -/

/-- A path that goes wrong after some steps. -/
inductive Spoiled : List Step → Text → PathFault → Prop
  /-- A dot without a name. -/
  | dot {rest : Text} (hrest : ∀ c ∈ rest.head?, beginsStep c = true) :
      Spoiled [] ('.' :: rest) .emptyName
  /-- A bracket that is not closed. -/
  | opened {rest : Text} (hrest : ']' ∉ rest) : Spoiled [] ('[' :: rest) .unclosedItem
  /-- Brackets without a name. -/
  | brackets {rest : Text} : Spoiled [] ('[' :: ']' :: rest) .emptyName
  /-- Brackets around what begins with too large a number. -/
  | large {part rest : Text} (hpart : ']' ∉ part) (hlarge : indexLimit < Text.leadingValue part) :
      Spoiled [] ('[' :: part ++ ']' :: rest) .indexTooLarge
  /-- Text that begins no step. -/
  | text {c : Char} {rest : Text} (hc : beginsStep c = false) :
      Spoiled [] (c :: rest) .textAfterItem
  /-- A fault behind an attribute. -/
  | afterAttribute {name rest : Text} {steps : List Step} {fault : PathFault} (hne : name ≠ [])
      (hname : ∀ c ∈ name, beginsStep c = false) (hrest : ∀ c ∈ rest.head?, beginsStep c = true)
      (hlater : Spoiled steps rest fault) :
      Spoiled (.attribute name :: steps) ('.' :: name ++ rest) fault
  /-- A fault behind the item of a number. -/
  | afterItem {digits rest : Text} {steps : List Step} {fault : PathFault} (hne : digits ≠ [])
      (hdigits : ∀ c ∈ digits, Text.isDecimal c = true)
      (hfits : Text.numeralValue digits ≤ indexLimit) (hlater : Spoiled steps rest fault) :
      Spoiled (.item (Text.numeralValue digits) :: steps) ('[' :: digits ++ ']' :: rest) fault
  /-- A fault behind the entry of a name. -/
  | afterEntry {key rest : Text} {steps : List Step} {fault : PathFault} (hkey : ']' ∉ key)
      (hname : ∃ c ∈ key, Text.isDecimal c = false) (hfits : Text.leadingValue key ≤ indexLimit)
      (hlater : Spoiled steps rest fault) :
      Spoiled (.entry key :: steps) ('[' :: key ++ ']' :: rest) fault

/-- What stands between brackets is read up to the first closing one. -/
theorem takeWhile_append_bracket {part : Text} (h : ']' ∉ part) (rest : Text) :
    (part ++ ']' :: rest).takeWhile (· != ']') = part ∧
      (part ++ ']' :: rest).dropWhile (· != ']') = ']' :: rest := by
  have hpart : ∀ c ∈ part, (c != ']') = true := by
    intro c hc
    simpa using ne_of_mem_of_not_mem hc h
  constructor
  · rw [List.takeWhile_append_of_pos hpart]
    simp
  · rw [List.dropWhile_append_of_pos hpart]
    simp

/-- The steps of a path with an item are those behind the item, unless the item is wrong. -/
theorem steps_bracket {part : Text} (h : ']' ∉ part) (rest : Text) :
    steps ('[' :: part ++ ']' :: rest) =
      match itemStep part with
      | .error fault => ([], some fault)
      | .ok step => (step :: (steps rest).1, (steps rest).2) := by
  obtain ⟨htake, hdrop⟩ := takeWhile_append_bracket h rest
  rw [List.cons_append, steps, if_neg (by decide), if_pos rfl]
  split
  · next hnone =>
    rw [hdrop] at hnone
    cases hnone
  · next hsome =>
    rw [hdrop] at hsome
    cases hsome
    exact congrArg (fun part => match itemStep part with
      | .error fault => ([], some fault)
      | .ok step => (step :: (steps rest).1, (steps rest).2)) htake

/-- A name is read up to the beginning of a step. -/
theorem takeWhile_append_name {name rest : Text} (hname : ∀ c ∈ name, beginsStep c = false)
    (hrest : ∀ c ∈ rest.head?, beginsStep c = true) :
    (name ++ rest).takeWhile (!beginsStep ·) = name ∧
      (name ++ rest).dropWhile (!beginsStep ·) = rest := by
  have hhead : ∀ c ∈ rest.head?, (!beginsStep c) = false := fun c hc => by simp [hrest c hc]
  have hall : ∀ c ∈ name, (!beginsStep c) = true := fun c hc => by simp [hname c hc]
  constructor
  · rw [Text.takeWhile_append_of_head? hhead, List.takeWhile_eq_self_iff.mpr hall]
  · rw [Text.dropWhile_append_of_head? hhead, List.dropWhile_eq_nil_iff.mpr hall, List.nil_append]

/-- The steps of a path with an attribute are those behind the attribute. -/
theorem steps_dot {name rest : Text} (hname : ∀ c ∈ name, beginsStep c = false)
    (hrest : ∀ c ∈ rest.head?, beginsStep c = true) :
    steps ('.' :: name ++ rest) =
      if name.isEmpty then ([], some .emptyName)
      else (.attribute name :: (steps rest).1, (steps rest).2) := by
  obtain ⟨htake, hdrop⟩ := takeWhile_append_name hname hrest
  rw [List.cons_append, steps, if_pos rfl]
  simp only [htake, hdrop]

/-- Digits between brackets are an index, if it fits. -/
theorem itemStep_of_digits {digits : Text} (hne : digits ≠ [])
    (hdigits : ∀ c ∈ digits, Text.isDecimal c = true)
    (hfits : Text.numeralValue digits ≤ indexLimit) :
    itemStep digits = .ok (.item (Text.numeralValue digits)) := by
  rw [itemStep_eq, Text.leadingValue_eq hdigits, if_neg (not_lt.mpr hfits),
    List.isEmpty_eq_false_iff.mpr hne, List.all_eq_true.mpr hdigits]
  rfl

/-- A name between brackets, which is no index, is a key. -/
theorem itemStep_of_name {key : Text} (hname : ∃ c ∈ key, Text.isDecimal c = false)
    (hfits : Text.leadingValue key ≤ indexLimit) : itemStep key = .ok (.entry key) := by
  have hempty : key.isEmpty = false := by
    obtain ⟨c, hc, -⟩ := hname
    exact List.isEmpty_eq_false_iff.mpr (List.ne_nil_of_mem hc)
  have hall : key.all Text.isDecimal = false := by simpa using hname
  rw [itemStep_eq, if_neg (not_lt.mpr hfits), hempty, hall]
  rfl

/-- The fault of a spoiled path is found, behind the steps before it. -/
theorem Spoiled.steps_eq {path : Text} {before : List Step} {fault : PathFault}
    (h : Spoiled before path fault) : steps path = (before, some fault) := by
  induction h with
  | dot hrest => exact steps_dot (List.forall_mem_nil _) hrest
  | @opened rest hrest =>
    have hnone : rest.dropWhile (· != ']') = [] := by
      rw [List.dropWhile_eq_nil_iff]
      intro c hc
      simpa using ne_of_mem_of_not_mem hc hrest
    rw [steps, if_neg (by decide), if_pos rfl]
    split
    · rfl
    · next hsome =>
      rw [hnone] at hsome
      cases hsome
  | @brackets rest => exact steps_bracket List.not_mem_nil rest
  | large hpart hlarge =>
    rw [steps_bracket hpart, itemStep_eq, if_pos hlarge]
  | @text c rest hc =>
    have hdot : c ≠ '.' := by
      rintro rfl
      cases hc
    have hbracket : c ≠ '[' := by
      rintro rfl
      cases hc
    rw [steps, if_neg hdot, if_neg hbracket]
  | @afterAttribute name rest steps fault hne hname hrest _ ih =>
    have hempty : name.isEmpty = false := by simpa using hne
    rw [steps_dot hname hrest, hempty, ih]
    rfl
  | @afterItem digits rest steps fault hne hdigits hfits _ ih =>
    have hpart : ']' ∉ digits := by
      intro hmem
      have hdecimal := hdigits ']' hmem
      revert hdecimal
      decide
    rw [steps_bracket hpart, itemStep_of_digits hne hdigits hfits, ih]
  | afterEntry hkey hname hfits _ ih =>
    rw [steps_bracket hkey, itemStep_of_name hname hfits, ih]

/-- A text is a name without the beginning of a step, and what begins with one. -/
theorem exists_name (t : Text) : ∃ name later, t = name ++ later ∧
    (∀ c ∈ name, beginsStep c = false) ∧ ∀ c ∈ later.head?, beginsStep c = true := by
  refine ⟨t.takeWhile (!beginsStep ·), t.dropWhile (!beginsStep ·),
    List.takeWhile_append_dropWhile.symm, fun c hc => ?_, fun c hc => ?_⟩
  · simpa using List.mem_takeWhile_imp hc
  · have hstop := List.head?_dropWhile_not (!beginsStep ·) t
    rw [hc] at hstop
    simpa using hstop

/-- The fault of a path that is found between brackets, or behind them. -/
theorem spoiled_of_steps_bracket {part later : Text} {before : List Step} {fault : PathFault}
    (hpart : ']' ∉ part) (h : steps ('[' :: part ++ ']' :: later) = (before, some fault))
    (hlater : ∀ {before}, steps later = (before, some fault) → Spoiled before later fault) :
    Spoiled before ('[' :: part ++ ']' :: later) fault := by
  rw [steps_bracket hpart, itemStep_eq] at h
  by_cases hlarge : indexLimit < Text.leadingValue part
  · rw [if_pos hlarge] at h
    cases h
    exact .large hpart hlarge
  rw [if_neg hlarge] at h
  by_cases hempty : part.isEmpty = true
  · rw [if_pos hempty] at h
    cases h
    rw [List.isEmpty_iff] at hempty
    subst hempty
    exact .brackets
  rw [if_neg hempty] at h
  have hbehind : steps later = ((steps later).1, some fault) := by
    split_ifs at h <;> exact Prod.ext rfl (Prod.mk.inj h).2
  by_cases hall : part.all Text.isDecimal = true
  · rw [if_pos hall] at h
    obtain ⟨rfl, -⟩ := Prod.mk.inj h
    rw [List.all_eq_true] at hall
    rw [Text.leadingValue_eq hall, not_lt] at hlarge
    exact .afterItem (by simpa using hempty) hall hlarge (hlater hbehind)
  · rw [if_neg hall] at h
    obtain ⟨rfl, -⟩ := Prod.mk.inj h
    exact .afterEntry hpart (by simpa using hall) (not_lt.mp hlarge) (hlater hbehind)

/-- A path whose fault is found is spoiled. -/
theorem spoiled_of_steps_eq {path : Text} {before : List Step} {fault : PathFault}
    (h : steps path = (before, some fault)) : Spoiled before path fault := by
  -- What is behind a step is shorter, and the fault that is found there spoils it.
  induction hn : path.length using Nat.strong_induction_on generalizing path before with
  | _ n ih =>
    subst hn
    cases path with
    | nil => simp [steps] at h
    | cons c rest =>
      by_cases hdot : c = '.'
      · subst hdot
        obtain ⟨name, later, rfl, hname, hlater⟩ := exists_name rest
        rw [← List.cons_append] at h ih ⊢
        rw [steps_dot hname hlater] at h
        split at h
        · next hempty =>
          cases h
          rw [List.isEmpty_iff] at hempty
          subst hempty
          exact .dot hlater
        · next hne =>
          obtain ⟨rfl, hfault⟩ := Prod.mk.inj h
          refine .afterAttribute (by simpa using hne) hname hlater ?_
          have hshorter : later.length < ('.' :: name ++ later).length := by
            simp only [List.length_append, List.length_cons]
            omega
          exact ih later.length hshorter (Prod.ext rfl hfault) rfl
      by_cases hbracket : c = '['
      · subst hbracket
        by_cases hclosed : ']' ∈ rest
        · obtain ⟨part, later, rfl, hpart⟩ := List.eq_append_cons_of_mem hclosed
          refine spoiled_of_steps_bracket hpart h fun hbehind => ?_
          have hshorter : later.length < ('[' :: (part ++ ']' :: later)).length := by
            simp only [List.length_append, List.length_cons]
            omega
          exact ih later.length hshorter hbehind rfl
        · rw [(Spoiled.opened hclosed).steps_eq] at h
          cases h
          exact .opened hclosed
      · have hc : beginsStep c = false := by simp [beginsStep, hdot, hbracket]
        rw [(Spoiled.text hc).steps_eq] at h
        cases h
        exact .text hc

/-- The steps of a path end with a fault exactly when the path is spoiled behind them. -/
theorem steps_eq_iff_spoiled {path : Text} {before : List Step} {fault : PathFault} :
    steps path = (before, some fault) ↔ Spoiled before path fault :=
  ⟨spoiled_of_steps_eq, Spoiled.steps_eq⟩

/-! ## Names of fields -/

/-- A name of a field whose path goes wrong before a value is missing: its number is too large, or
the argument and the steps before the fault lead to a value. -/
inductive GoesWrong (args : Arguments) : Text → PathFault → Prop
  | number {first rest : Text} (hfirst : ∀ c ∈ first, beginsStep c = false)
      (hrest : ∀ c ∈ rest.head?, beginsStep c = true)
      (hlarge : indexLimit < Text.leadingValue first) :
      GoesWrong args (first ++ rest) .indexTooLarge
  | path {first rest : Text} {before : List Step} {fault : PathFault} {v w : Value}
      (hfirst : ∀ c ∈ first, beginsStep c = false)
      (hrest : ∀ c ∈ rest.head?, beginsStep c = true)
      (hstart : start args first = .ok (some v)) (hspoiled : Spoiled before rest fault)
      (hfollow : args.follow? v before = some w) :
      GoesWrong args (first ++ rest) fault

/-- An argument is missed for too large a number only. -/
theorem start_eq_error_iff {args : Arguments} {first : Text} {fault : PathFault} :
    start args first = .error fault ↔
      indexLimit < Text.leadingValue first ∧ fault = .indexTooLarge := by
  rw [start, index?_eq]
  split
  · next hlarge =>
    simp [hlarge, bind, Except.bind, eq_comm]
  · next hfits =>
    refine iff_of_false ?_ fun h => hfits h.1
    split <;> nofun

/-- The value of a name is found by the argument that it begins with and the steps behind it. -/
theorem lookup_eq (args : Arguments) (name : Text) :
    lookup args name =
      match start args (name.takeWhile (!beginsStep ·)) with
      | .error fault => .error (.path fault)
      | .ok value =>
        match value.bind fun v => args.follow? v (steps (name.dropWhile (!beginsStep ·))).1,
          (steps (name.dropWhile (!beginsStep ·))).2 with
        | none, _ => .error (.template (.noValue name))
        | some _, some fault => .error (.path fault)
        | some v, none => .ok v := rfl

/-- Looking up a name with a path is to start with the name and to follow the path. -/
theorem lookup_append {first rest : Text} (hfirst : ∀ c ∈ first, beginsStep c = false)
    (hrest : ∀ c ∈ rest.head?, beginsStep c = true) (args : Arguments) :
    lookup args (first ++ rest) =
      match start args first with
      | .error fault => .error (.path fault)
      | .ok value =>
        match value.bind fun v => args.follow? v (steps rest).1, (steps rest).2 with
        | none, _ => .error (.template (.noValue (first ++ rest)))
        | some _, some fault => .error (.path fault)
        | some v, none => .ok v := by
  obtain ⟨htake, hdrop⟩ := takeWhile_append_name hfirst hrest
  rw [lookup_eq, htake, hdrop]

/-- A number with a path behind it leads to where the path leads from the argument in its place. -/
theorem lookup_ofNat_append_eq_ok_iff {args : Arguments} {n : Nat} {path : Text} {value : Value}
    (hpath : ∀ c ∈ path.head?, beginsStep c = true) :
    lookup args (Text.ofNat n ++ path) = .ok value ↔
      n ≤ indexLimit ∧ ∃ arg taken, args.positional[n]? = some arg ∧
        steps path = (taken, none) ∧ args.follow? arg taken = some value := by
  have hnumber : ∀ c ∈ Text.ofNat n, beginsStep c = false :=
    fun c hc => beginsStep_of_isDigit (Text.isDigit_of_mem_ofNat hc)
  rw [lookup_append hnumber hpath]
  by_cases hfits : n ≤ indexLimit
  · have hstart : start args (Text.ofNat n) = .ok args.positional[n]? := by
      rw [start, index?_ofNat hfits]
      rfl
    rw [hstart]
    cases args.positional[n]? with
    | none => simp [hfits]
    | some arg =>
      rcases hsteps : steps path with ⟨taken, fault⟩
      cases hfollow : args.follow? arg taken <;> cases fault <;> simp [hfits, hfollow]
  · have hdecimal : ∀ c ∈ Text.ofNat n, Text.isDecimal c = true :=
      fun c hc => Text.isDecimal_of_mem_ofNat hc
    have hlarge : indexLimit < Text.leadingValue (Text.ofNat n) := by
      rw [Text.leadingValue_eq hdecimal, Text.numeralValue_ofNat]
      exact not_le.mp hfits
    rw [start_eq_error_iff.mpr ⟨hlarge, rfl⟩]
    simp [hfits]

/-- Looking up a name fails for its path exactly when the path goes wrong. -/
theorem lookup_eq_path_iff {args : Arguments} {name : Text} {fault : PathFault} :
    lookup args name = .error (.path fault) ↔ GoesWrong args name fault := by
  constructor
  · intro h
    obtain ⟨first, rest, rfl, hfirst, hrest⟩ := exists_name name
    rw [lookup_append hfirst hrest] at h
    split at h
    · next hstart =>
      cases h
      obtain ⟨hlarge, rfl⟩ := start_eq_error_iff.mp hstart
      exact .number hfirst hrest hlarge
    · next value hstart =>
      split at h
      · cases h
      · next w fault' hvalue hfault =>
        cases h
        obtain ⟨v, rfl, hfollow⟩ := Option.bind_eq_some_iff.mp hvalue
        exact .path hfirst hrest hstart (steps_eq_iff_spoiled.mp (Prod.ext rfl hfault)) hfollow
      · cases h
  · intro h
    cases h with
    | number hfirst hrest hlarge =>
      rw [lookup_append hfirst hrest, start_eq_error_iff.mpr ⟨hlarge, rfl⟩]
    | path hfirst hrest hstart hspoiled hfollow =>
      rw [lookup_append hfirst hrest, hstart, steps_eq_iff_spoiled.mpr hspoiled]
      simp only [Option.bind_some, hfollow]

end FieldPath

end SqlComposer
