import SqlComposer.Placeholder.Bound
import SqlComposer.Proofs.NamedForms

/-!
# Text clauses of queries

A text clause binds the parameters of a query to the names in its named form. These are the names of
the placeholders that its text still holds. The parameters of discarded texts are kept with the
query although no placeholder refers to them, so that a query which has discarded a placeholder has
no text clause.
-/

namespace SqlComposer

namespace Placeholder

/-! ## Names in renamed texts -/

/-- The name that a placeholder with these digits is given. -/
def nameOf (digits : Text) : Text :=
  name ((Text.numeralValue digits : ℤ) - 1)

/-- The name for a numeral is that of the number below it. -/
theorem nameOf_ofNat {n : ℕ} (h : 1 ≤ n) : nameOf (Text.ofNat n) = name ((n - 1 : ℕ) : ℤ) := by
  rw [nameOf, Text.numeralValue_ofNat, Nat.cast_sub h, Nat.cast_one]

/-- No name begins within or directly behind a word. -/
theorem namesFrom_append_of_isWord {word : Text} (hne : word ≠ [])
    (hword : ∀ c ∈ word, Text.isWord c = true) (blocked : Bool) (t : Text) :
    namesFrom blocked (word ++ t) = namesFrom true t := by
  have hcolon : Text.isWord ':' = false := by decide +kernel
  induction word generalizing blocked with
  | nil => exact absurd rfl hne
  | cons c word ih =>
    rw [List.forall_mem_cons] at hword
    have hc : ¬ (c = ':' ∧ blocked = false) := by
      rintro ⟨rfl, -⟩
      rw [hcolon] at hword
      cases hword.1
    have hblocks : blocksName c = true := by simp [blocksName, hword.1]
    rw [List.cons_append, namesFrom, if_neg hc, hblocks]
    cases word with
    | nil => rfl
    | cons d word => exact ih (List.cons_ne_nil d word) hword.2 true

/-- A word ends where no word character follows, and names something unless a colon does. -/
theorem wordBeforeNoColon?_append {word rest : Text} (hword : ∀ c ∈ word, Text.isWord c = true)
    (hrest : Text.startsWord rest = false) (hcolon : rest.head? ≠ some ':') :
    wordBeforeNoColon? (word ++ rest) = some (word, rest) := by
  have hhead : ∀ c ∈ rest.head?, Text.isWord c = false := by
    cases rest with
    | nil => simp
    | cons c rest => simpa [Text.startsWord] using hrest
  rw [wordBeforeNoColon?, Text.takeWhile_append_of_head? hhead,
    Text.dropWhile_append_of_head? hhead, List.takeWhile_eq_self_iff.mpr hword,
    List.dropWhile_eq_nil_iff.mpr hword, List.nil_append]
  cases rest with
  | nil => rfl
  | cons c rest =>
    split
    · next heq =>
      cases heq
      exact absurd rfl hcolon
    · rfl

/-- A word behind a colon is a name, unless a colon follows it. -/
theorem namesFrom_colon {word rest : Text} (hne : word ≠ [])
    (hword : ∀ c ∈ word, Text.isWord c = true) (hrest : Text.startsWord rest = false)
    (hcolon : rest.head? ≠ some ':') :
    namesFrom false (':' :: (word ++ rest)) = word :: namesFrom true rest := by
  have hblocks : blocksName ':' = true := by decide +kernel
  have hisEmpty : word.isEmpty = false := by simpa using hne
  rw [namesFrom, if_pos ⟨rfl, rfl⟩, wordBeforeNoColon?_append hword hrest hcolon, hblocks,
    namesFrom_append_of_isWord hne hword]
  simp only [hisEmpty, Bool.false_eq_true, if_false]

/-- All characters of the name of a parameter are word characters. -/
theorem isWord_of_mem_name {n : ℕ} {c : Char} (h : c ∈ name n) : Text.isWord c = true := by
  rcases List.mem_cons.mp h with rfl | hnumber
  · decide +kernel
  · exact Text.isWord_of_isDecimal (Text.isDecimal_of_mem_ofNat hnumber)

/-- No colon follows a renamed placeholder that stands apart, if the text holds no other colon. -/
theorem Apart.head?_renamed_ne {rest : Text} (h : Apart ('$' :: rest)) (hcolon : ':' ∉ rest) :
    (renamed (rest.dropWhile Text.isDecimal)).head? ≠ some ':' := by
  intro hhead
  rw [head?_renamed] at hhead
  obtain ⟨c, hc, hmark⟩ := Option.map_eq_some_iff.mp hhead
  split at hmark
  · next heq => exact h.head?_dropWhile_ne (heq ▸ hc)
  · exact hcolon (hmark ▸ (List.dropWhile_suffix _).subset (List.mem_of_mem_head? hc))

/-- The dollar signs behind a dollar sign are those behind its digits. -/
theorem dollars_dropWhile (rest : Text) :
    dollars (rest.dropWhile Text.isDecimal) = dollars rest := by
  have hnone : '$' ∉ rest.takeWhile Text.isDecimal := fun hmem =>
    absurd (List.mem_takeWhile_imp hmem) (by decide)
  conv_rhs => rw [← List.takeWhile_append_dropWhile (p := Text.isDecimal) (l := rest),
    dollars_append_of_not_mem hnone]

/-- The names in a renamed text are those of its placeholders, if these stand apart and the text
holds no other colon and no backslash. -/
theorem namesFrom_renamed {count : ℕ} {t : Text} (hapart : Apart t) (hrange : InRange count t)
    (hcolon : ':' ∉ t) (hbackslash : '\\' ∉ t) {blocked : Bool}
    (hblocked : t.head? = some '$' → blocked = false) :
    namesFrom blocked (renamed t) = (dollars t).map nameOf := by
  induction t using renamed.induct generalizing blocked with
  | case1 => simp [namesFrom, dollars]
  | case2 rest ih =>
    simp only [List.mem_cons, not_or] at hcolon hbackslash
    obtain ⟨n, hlow, -, hdigits⟩ := hrange (rest.takeWhile Text.isDecimal) (by simp [dollars])
    have hname : nameOf (rest.takeWhile Text.isDecimal) = name ((n - 1 : ℕ) : ℤ) :=
      hdigits ▸ nameOf_ofNat hlow
    have hword : ∀ c ∈ nameOf (rest.takeWhile Text.isDecimal), Text.isWord c = true :=
      hname ▸ fun c hc => isWord_of_mem_name hc
    have hne : nameOf (rest.takeWhile Text.isDecimal) ≠ [] := List.cons_ne_nil _ _
    have hsubset : rest.dropWhile Text.isDecimal ⊆ rest := (List.dropWhile_suffix _).subset
    have hlater : namesFrom true (renamed (rest.dropWhile Text.isDecimal)) =
        (dollars rest).map nameOf := by
      rw [← dollars_dropWhile rest]
      exact ih hapart.of_dollar hrange.of_dollar (mt (@hsubset _) hcolon.2)
        (mt (@hsubset _) hbackslash.2) fun hhead => absurd hhead hapart.head?_dropWhile_ne
    have hrenamed : renamed ('$' :: rest) =
        ':' :: (nameOf (rest.takeWhile Text.isDecimal) ++
          renamed (rest.dropWhile Text.isDecimal)) := renamed_dollar rest
    rw [hrenamed, hblocked rfl, namesFrom_colon hne hword
      ((Text.startsWord_renamed _).trans (hapart [] rest rfl).2.2)
      (hapart.head?_renamed_ne hcolon.2), hlater, dollars, if_pos rfl, List.map_cons]
  | case3 c rest hc ih =>
    simp only [List.mem_cons, not_or] at hcolon hbackslash
    have hnext : rest.head? = some '$' → blocksName c = false := by
      intro hhead
      obtain ⟨after, rfl⟩ := List.head?_eq_some_iff.mp hhead
      obtain ⟨hfront, -⟩ := hapart [c] after rfl
      simpa [blocksName, Ne.symm hcolon.1, Ne.symm hbackslash.1] using hfront
    rw [renamed_cons_of_ne hc, namesFrom, if_neg fun h => hcolon.1 h.1.symm,
      ih hapart.of_cons hrange.of_cons hcolon.2 hbackslash.2 hnext, dollars_cons_of_ne hc]

/-! ## Binding -/

/-- Removing repetitions changes nothing without any. -/
theorem eraseDups_eq_self_of_nodup {names : List Text} (h : names.Nodup) :
    names.eraseDups = names := by
  induction names with
  | nil => rfl
  | cons name names ih =>
    obtain ⟨hname, hnames⟩ := List.nodup_cons.mp h
    have hkeep : names.filter (fun other => !other == name) = names :=
      List.filter_eq_self.mpr fun other hother => by
        simpa using ne_of_mem_of_not_mem hother hname
    rw [List.eraseDups_cons, hkeep, ih hnames]

/-- A value is found under its name if no other value has the name. -/
theorem lookup_eq_of_mem {α : Type} {values : List (Text × α)} {name : Text} {value : α}
    (hnodup : (values.map Prod.fst).Nodup) (h : (name, value) ∈ values) :
    values.lookup name = some value := by
  obtain ⟨front, back, rfl⟩ := List.append_of_mem h
  refine List.lookup_eq_some_iff.mpr ⟨front, back, rfl, fun p hp => ?_⟩
  rw [List.map_append, List.map_cons, List.nodup_append] at hnodup
  have hne := hnodup.2.2 p.1 (List.mem_map_of_mem hp) name List.mem_cons_self
  simpa using Ne.symm hne

/-- Values are bound to the names of a text if these are the names of the values. -/
theorem exists_bind_eq_ok {α : Type} {t : Text} {values : List (Text × α)}
    (hnames : (boundNames t).Perm (values.map Prod.fst)) (hnodup : (values.map Prod.fst).Nodup) :
    ∃ clause, bind t values = .ok clause ∧ clause.text = unescape t ∧
      clause.parameters.Perm (values.map fun (name, value) => (name, some value)) := by
  have hfound : values.find? (fun (name, _) => !(boundNames t).contains name) = none := by
    refine List.find?_eq_none.mpr fun p hp => ?_
    have hmem := hnames.mem_iff.mpr (List.mem_map_of_mem hp)
    simpa using hmem
  have hsorted : (sortedNames (boundNames t)).Perm (values.map Prod.fst) := by
    rw [sortedNames, eraseDups_eq_self_of_nodup (hnames.nodup_iff.mpr hnodup)]
    exact (List.mergeSort_perm _ _).trans hnames
  have hvalues : (values.map Prod.fst).map (fun name => (name, values.lookup name)) =
      values.map fun (name, value) => (name, some value) := by
    rw [List.map_map]
    refine List.map_congr_left fun p hp => ?_
    rw [Function.comp_apply, lookup_eq_of_mem hnodup hp]
  refine ⟨_, by rw [bind]; simp only [hfound]; rfl, rfl, ?_⟩
  rw [← hvalues]
  exact hsorted.map _

/-- The first name that a text does not hold is given. -/
theorem bind_eq_error {α : Type} {t : Text} {values : List (Text × α)} {i : ℕ}
    (hi : i < values.length) (hbefore : ∀ j (hj : j < i), values[j].1 ∈ boundNames t)
    (hname : values[i].1 ∉ boundNames t) : bind t values = .error values[i].1 := by
  have hfound : values.find? (fun (name, _) => !(boundNames t).contains name) =
      some values[i] := by
    refine List.find?_eq_some_iff_getElem.mpr ⟨by simpa using hname, i, hi, rfl, fun j hj => ?_⟩
    simpa using hbefore j hj
  rw [bind]
  simp only [hfound]

/-- The names of parameters are those of the numbers from zero on. -/
theorem map_fst_bindings {α : Type} (values : List α) :
    (bindings values).map Prod.fst = (List.range values.length).map fun i : ℕ => name i := by
  rw [bindings, List.map_map, List.range_eq_range', ← List.zipIdx_map_snd, List.map_map]
  rfl

/-- The names of bindings are those of their positions. -/
theorem fst_getElem_bindings {α : Type} (values : List α) (i : ℕ)
    (h : i < (bindings values).length) : (bindings values)[i].1 = name i := by
  simp [bindings]

/-- Different numbers have different numerals. -/
theorem ofNat_injective {m n : ℕ} (h : Text.ofNat m = Text.ofNat n) : m = n := by
  rw [← Text.numeralValue_ofNat m, h, Text.numeralValue_ofNat]

/-- Different numbers have different names. -/
theorem name_injective {m n : ℕ} (h : name m = name n) : m = n :=
  ofNat_injective (List.cons.inj h).2

/-- The names of bindings are all different. -/
theorem nodup_map_fst_bindings {α : Type} (values : List α) :
    ((bindings values).map Prod.fst).Nodup := by
  rw [map_fst_bindings]
  exact List.nodup_range.map fun m n h => name_injective h

/-- If the names that a text does not hold are those of some numbers, binding fails for the least of
these. -/
theorem bind_eq_error_of_least {α : Type} {t : Text} {values : List α} {missing : List Text}
    (hperm : (boundNames t ++ missing.map nameOf).Perm ((bindings values).map Prod.fst))
    (hmissing : ∀ digits ∈ missing, ∃ n, 1 ≤ n ∧ n ≤ values.length ∧ digits = Text.ofNat n) {n : ℕ}
    (hn : Text.ofNat n ∈ missing) (hleast : ∀ m < n, Text.ofNat m ∉ missing) :
    bind t (bindings values) = .error (name ((n : ℤ) - 1)) := by
  obtain ⟨m, hlow, hhigh, heq⟩ := hmissing _ hn
  obtain rfl := ofNat_injective heq
  have hi : n - 1 < (bindings values).length := by
    rw [bindings, List.length_map, List.length_zipIdx]
    omega
  have hnodup := hperm.nodup_iff.mpr (nodup_map_fst_bindings values)
  have hnot : (bindings values)[n - 1].1 ∉ boundNames t := by
    intro hmem
    refine (List.nodup_append.mp hnodup).2.2 _ hmem _ (List.mem_map_of_mem hn) ?_
    rw [fst_getElem_bindings, nameOf_ofNat hlow]
  have hbefore : ∀ j (hj : j < n - 1), (bindings values)[j].1 ∈ boundNames t := by
    intro j hj
    have hmem : (bindings values)[j].1 ∈ (bindings values).map Prod.fst :=
      List.mem_map_of_mem (List.getElem_mem _)
    refine (List.mem_append.mp (hperm.mem_iff.mpr hmem)).resolve_right fun hlost => ?_
    -- the number of a missing name is no smaller than the least one
    obtain ⟨digits, hdigits, hname⟩ := List.mem_map.mp hlost
    obtain ⟨m, hm, -, rfl⟩ := hmissing digits hdigits
    rw [fst_getElem_bindings, nameOf_ofNat hm] at hname
    have hj' := name_injective hname
    exact hleast m (by omega) hdigits
  rw [bind_eq_error hi hbefore hnot, fst_getElem_bindings, Nat.cast_sub hlow, Nat.cast_one]

/-- A text without backslashes has nothing to be taken off. -/
theorem unescape_of_not_mem {t : Text} (h : '\\' ∉ t) : unescape t = t := by
  induction t with
  | nil => rfl
  | cons c t ih =>
    simp only [List.mem_cons, not_or] at h
    rw [unescape, ih h.2]
    rintro rest rfl
    exact absurd rfl h.1

end Placeholder

/-! ## Bound queries -/

/-- A template, read after so many parameters, that writes placeholders which stand apart and holds
no mark of a name. -/
structure Template.IsBindable (counter : ℤ) (t : Template) : Prop extends t.IsApart counter where
  /-- No colon is its own. -/
  colon : t.Avoids ':'
  /-- No backslash is its own. -/
  backslash : t.Avoids '\\'

instance (counter : ℤ) (t : Template) : Decidable (t.IsBindable counter) :=
  decidable_of_iff (t.IsApart counter ∧ t.Avoids ':' ∧ t.Avoids '\\')
    ⟨fun h => ⟨h.1, h.2.1, h.2.2⟩, fun h => ⟨h.toIsApart, h.colon, h.backslash⟩⟩

namespace Query

variable {steps : List Step} {q : Query}

/-- Bindable templates keep their placeholders apart. -/
theorem Every.isApart (h : Every Template.IsBindable steps) :
    Every Template.IsApart steps :=
  h.imp fun _ _ _ h => h.toIsApart

/-- The placeholders of the texts that calls discard. -/
def lost (steps : List Step) : List Text :=
  (discarded steps).flatMap Placeholder.dollars

/-- A colon or a backslash stands in an entry of a query only if a template holds it. -/
theorem not_mem_entries_of_run {c : Char} (hc : c = ':' ∨ c = '\\')
    (hrun : run .positional steps = .ok (some q))
    (hsteps : Every (fun _ template => template.Avoids c) steps) :
    ∀ entry ∈ q.clauses.entries, c ∉ entry := by
  have hplain : ¬ Block.isPlain c = true := by rcases hc with rfl | rfl <;> decide
  have hdollar : c ≠ '$' := by rcases hc with rfl | rfl <;> decide
  have hnumber (n : ℤ) : c ∉ Text.ofInt n := by
    intro hmem
    rcases Text.eq_minus_or_isDigit_of_mem_ofInt hmem with rfl | hdigit
    · exact absurd hc (by decide)
    · rcases hc with rfl | rfl <;> cases hdigit
  have htexts : Every (fun counter template =>
      c ∉ template.textAfter Placeholder.positional counter) steps :=
    hsteps.imp fun counter template _ h => Template.not_mem_textAfter hdollar hnumber h
  have hentries := forall_entries_of_run (fun entry text hentry htext hmem =>
    (Block.isPlain_or_mem hentry hmem).elim hplain htext) hrun htexts
  rwa [receiver, Option.getD_some] at hentries

/-- A colon or a backslash stands in the text of a query only if an entry holds it. -/
theorem not_mem_text {c : Char} (hc : c = ':' ∨ c = '\\')
    (h : ∀ entry ∈ q.clauses.entries, c ∉ entry) : c ∉ q.text := by
  have hplain : ¬ Block.isPlain c = true := by rcases hc with rfl | rfl <;> decide
  intro hmem
  rcases Clauses.mem_render hmem with hletter | ⟨entry, hentry, hmem⟩
  · exact hplain hletter
  · exact h entry hentry hmem

/-- The names of the placeholders with the numbers of all parameters are those of the parameters. -/
theorem map_nameOf_numbersUpTo {values : List Value} {counter : ℤ}
    (h : (values.length : ℤ) = counter) :
    ((Entries.numbersUpTo counter).map Text.ofInt).map Placeholder.nameOf =
      (Placeholder.bindings values).map Prod.fst := by
  rw [Placeholder.map_fst_bindings, List.map_map, ← h, Entries.numbersUpTo, Int.toNat_natCast,
    List.map_map]
  refine List.map_congr_left fun i hi => ?_
  have hmem : (i : ℤ) + 1 ∈ Entries.numbersUpTo values.length := by
    have := List.mem_range.mp hi
    exact Entries.mem_numbersUpTo.mpr ⟨by omega, by omega⟩
  rw [Function.comp_apply, Function.comp_apply, Placeholder.nameOf,
    numeralValue_of_mem_numbersUpTo hmem, add_sub_cancel_right]

/-- The names in the named form of a query and those of lost placeholders are together the names of
all parameters. -/
theorem perm_boundNames_of_run {values : List Value} (hrun : run .positional steps = .ok (some q))
    (hsteps : Every Template.IsBindable steps) (hlength : (values.length : ℤ) = q.counter) :
    (Placeholder.boundNames (Placeholder.renamed q.text) ++
      (lost steps).map Placeholder.nameOf).Perm ((Placeholder.bindings values).map Prod.fst) := by
  have hapart := hsteps.isApart
  have hcolon := not_mem_entries_of_run (.inl rfl) hrun (hsteps.imp fun _ _ _ h => h.colon)
  have hbackslash := not_mem_entries_of_run (.inr rfl) hrun
    (hsteps.imp fun _ _ _ h => h.backslash)
  have hnames : Placeholder.boundNames (Placeholder.renamed q.text) =
      (Placeholder.dollars q.text).map Placeholder.nameOf :=
    Placeholder.namesFrom_renamed (apart_text_of_run hrun hapart)
      (inRange_of_run hrun hapart.isEnded hlength) (not_mem_text (.inl rfl) hcolon)
      (not_mem_text (.inr rfl) hbackslash) fun _ => rfl
  have hdollars : Placeholder.dollars q.text = q.clauses.dollars := by
    rw [text, Clauses.dollars_render, Clauses.flatMap_dollars_written fun entry hentry =>
      Clauses.isResolved_of_not_mem (hcolon entry hentry)]
  have hperm := dollars_of_run hrun hapart.isEnded
  rw [receiver, Option.getD_some] at hperm
  rw [hnames, hdollars, ← List.map_append, ← map_nameOf_numbersUpTo hlength]
  exact hperm.map Placeholder.nameOf

/-- Lost placeholders are those of parameters. -/
theorem exists_of_mem_lost {count : ℕ} (hrun : run .positional steps = .ok (some q))
    (hsteps : Every Template.IsEnded steps) (hcount : (count : ℤ) = q.counter) :
    ∀ digits ∈ lost steps, ∃ n, 1 ≤ n ∧ n ≤ count ∧ digits = Text.ofNat n := by
  intro digits hdigits
  have hmem := (dollars_of_run hrun hsteps).subset (List.mem_append_right _ hdigits)
  obtain ⟨n, hn, rfl⟩ := List.mem_map.mp hmem
  rw [receiver, Option.getD_some, ← hcount] at hn
  exact exists_ofNat_of_mem_numbersUpTo hn

/-- The text clause of a query binds the parameters to the names in its named form. -/
theorem textClause_eq_of_run (hrun : run .positional steps = .ok (some q))
    (hsteps : Every Template.IsApart steps) :
    ∃ values, q.values = .ok values ∧ (values.length : ℤ) = q.counter ∧
      q.textClause = (Placeholder.bind (Placeholder.renamed q.text)
        (Placeholder.bindings values)).mapError .unbound := by
  obtain ⟨values, hvalues, hlength, hnamed⟩ := named_of_run hrun hsteps
  exact ⟨values, hvalues, hlength, by rw [textClause, hnamed]⟩

/-- The text clause of a query fails for the first parameter whose placeholder is lost. -/
theorem textClause_eq_error_of_run (hrun : run .positional steps = .ok (some q))
    (hsteps : Every Template.IsBindable steps) {n : ℕ}
    (hn : Text.ofNat n ∈ lost steps) (hleast : ∀ m < n, Text.ofNat m ∉ lost steps) :
    q.textClause = .error (.unbound (Placeholder.name ((n : ℤ) - 1))) := by
  have hapart := hsteps.isApart
  obtain ⟨values, -, hlength, hclause⟩ := textClause_eq_of_run hrun hapart
  rw [hclause, Placeholder.bind_eq_error_of_least (perm_boundNames_of_run hrun hsteps hlength)
    (exists_of_mem_lost hrun hapart.isEnded hlength) hn hleast]
  rfl

/-- If the templates hold no dollar sign, colon or backslash of their own and placeholders stand
apart in their texts, the parameters of a query are bound by name exactly when no placeholder is
lost: then the text clause has the named form as its text and gives every parameter its value.
Otherwise it fails for the first parameter whose placeholder is lost. -/
theorem textClause_of_run (hrun : run .positional steps = .ok (some q))
    (hsteps : Every Template.IsBindable steps) :
    (lost steps = [] → ∃ values clause, q.values = .ok values ∧
      (values.length : ℤ) = q.counter ∧ q.textClause = .ok clause ∧
      clause.text = Placeholder.renamed q.text ∧
      clause.parameters.Perm
        ((Placeholder.bindings values).map fun (name, value) => (name, some value))) ∧
    (lost steps ≠ [] → ∃ n : ℕ, Text.ofNat n ∈ lost steps ∧
      (∀ m < n, Text.ofNat m ∉ lost steps) ∧
      q.textClause = .error (.unbound (Placeholder.name ((n : ℤ) - 1)))) := by
  have hapart := hsteps.isApart
  obtain ⟨values, hvalues, hlength, hclause⟩ := textClause_eq_of_run hrun hapart
  constructor
  · intro hnone
    have hperm := perm_boundNames_of_run hrun hsteps hlength
    rw [hnone, List.map_nil, List.append_nil] at hperm
    obtain ⟨clause, hbind, htext, hparameters⟩ :=
      Placeholder.exists_bind_eq_ok hperm (Placeholder.nodup_map_fst_bindings values)
    have hbackslash := not_mem_entries_of_run (.inr rfl) hrun
      (hsteps.imp fun _ _ _ h => h.backslash)
    refine ⟨values, clause, hvalues, hlength, by rw [hclause, hbind]; rfl, ?_, hparameters⟩
    refine htext.trans (Placeholder.unescape_of_not_mem fun hmem => ?_)
    rcases Placeholder.mem_of_mem_renamed hmem with htext | hmark
    · exact not_mem_text (.inr rfl) hbackslash htext
    · exact absurd hmark (by decide)
  · intro hsome
    have hexists : ∃ n, Text.ofNat n ∈ lost steps := by
      obtain ⟨digits, hdigits⟩ := List.exists_mem_of_ne_nil _ hsome
      obtain ⟨n, -, -, rfl⟩ := exists_of_mem_lost hrun hapart.isEnded hlength digits hdigits
      exact ⟨n, hdigits⟩
    classical
    have hleast : ∀ m < Nat.find hexists, Text.ofNat m ∉ lost steps :=
      fun m hm => Nat.find_min hexists hm
    exact ⟨Nat.find hexists, Nat.find_spec hexists, hleast,
      textClause_eq_error_of_run hrun hsteps (Nat.find_spec hexists) hleast⟩

/-- A statement with a condition on a parameter, and a limit. -/
theorem textClause_of_run_condition :
    let statement : Template := ⟨.text "SELECT *\nFROM t\nWHERE a = ".toList, [⟨.int 7, .text []⟩]⟩
    let limit : Template := ⟨.text "LIMIT ".toList, [⟨.int 5, .text []⟩]⟩
    let steps : List Step := [.ofTemplate limit, .ofTemplate statement]
    ∃ q clause, run .positional steps = .ok (some q) ∧
      Every Template.IsBindable steps ∧
      lost steps = [] ∧ q.textClause = .ok clause ∧
      clause.text = "SELECT\n  *\nFROM t\nWHERE a = :p0\nLIMIT :p1".toList ∧
      clause.parameters.Perm [("p0".toList, some (.int 7)), ("p1".toList, some (.int 5))] := by
  intro statement limit steps
  let made₁ := made .positional none statement
  let made₂ := made .positional (some made₁) limit
  have hrun₁ : run .positional [.ofTemplate statement] = .ok (some made₁) :=
    run_ofTemplate rfl (by decide) (by decide) (by decide)
  have hrun₂ : run .positional steps = .ok (some made₂) :=
    run_ofTemplate hrun₁ (by decide) (by decide) (by decide)
  have hsteps : Every Template.IsBindable steps :=
    .cons (.cons trivial rfl rfl (by decide +kernel)) hrun₁ rfl (by decide +kernel)
  have hnone : lost steps = [] := by decide +kernel
  obtain ⟨values, clause, hvalues, -, hclause, htext, hparameters⟩ :=
    (textClause_of_run hrun₂ hsteps).1 hnone
  have htwo : values = [.int 7, .int 5] := by
    cases hvalues.symm.trans (rfl : made₂.values = .ok [.int 7, .int 5])
    rfl
  subst htwo
  refine ⟨made₂, clause, hrun₂, hsteps, hnone, hclause, htext.trans (by decide +kernel), ?_⟩
  exact hparameters

/-- The text clause of a query with a limit on a parameter that another one replaces: the parameter
is kept, but no placeholder refers to it. -/
theorem textClause_error_of_second_limit :
    let statement : Template := ⟨.text "SELECT * FROM t".toList, []⟩
    let limit (n : ℤ) : Template := ⟨.text "LIMIT ".toList, [⟨.int n, .text []⟩]⟩
    let steps : List Step := [.ofTemplate (limit 10), .ofTemplate (limit 5), .ofTemplate statement]
    ∃ q, run .positional steps = .ok (some q) ∧ Every Template.IsBindable steps ∧
      q.text = "SELECT\n  * FROM t\nLIMIT $2".toList ∧ q.values = .ok [.int 5, .int 10] ∧
      q.textClause = .error (.unbound "p0".toList) ∧
      ¬ ∃ clause, q.textClause = .ok clause := by
  intro statement limit steps
  let made₁ := made .positional none statement
  let made₂ := made .positional (some made₁) (limit 5)
  let made₃ := made .positional (some made₂) (limit 10)
  have hrun₁ : run .positional [.ofTemplate statement] = .ok (some made₁) :=
    run_ofTemplate rfl (by decide) (by decide) (by decide)
  have hrun₂ : run .positional [.ofTemplate (limit 5), .ofTemplate statement] = .ok (some made₂) :=
    run_ofTemplate hrun₁ (by decide) (by decide) (by decide)
  have hrun₃ : run .positional steps = .ok (some made₃) :=
    run_ofTemplate hrun₂ (by decide) (by decide) (by decide)
  have hsteps : Every Template.IsBindable steps :=
    .cons (.cons (.cons trivial rfl rfl (by decide +kernel)) hrun₁ rfl (by decide +kernel))
      hrun₂ rfl (by decide +kernel)
  have hlost : lost steps = [Text.ofNat 1] := by decide +kernel
  have hclause : made₃.textClause = .error (.unbound "p0".toList) := by
    refine textClause_eq_error_of_run hrun₃ hsteps (hlost ▸ List.mem_singleton_self _) ?_
    intro m hm hmem
    rw [hlost, List.mem_singleton] at hmem
    exact absurd (Placeholder.ofNat_injective hmem) (by omega)
  refine ⟨made₃, hrun₃, hsteps, by decide +kernel, rfl, hclause, ?_⟩
  rintro ⟨clause, hok⟩
  cases hclause.symm.trans hok

end Query

end SqlComposer
