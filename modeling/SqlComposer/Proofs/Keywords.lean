import Mathlib.Data.List.Infix
import SqlComposer.Fragment

/-!
# Keywords at the start of a text

A keyword that opens a text is told from the others by its first word. No two keywords begin alike,
apart from `OR` and `ORDER BY`, which the end of the word tells apart. So at most one keyword opens
a text, in whatever order they are tried. A fragment goes where the keyword says that opens it.
-/

namespace SqlComposer

namespace Text

/-- A word that has been found is at the start of the text, letter case ignored. -/
theorem prefix_of_afterWord? {word t rest : Text} (h : afterWord? word t = some rest) :
    word <+: t.map foldCase := by
  induction word generalizing t with
  | nil => exact List.nil_prefix
  | cons w word ih =>
    cases t with
    | nil => cases h
    | cons c t =>
      rw [afterWord?] at h
      split at h
      · next hw => simpa [hw] using ih h
      · cases h

/-- The first word of a phrase that has been found is at the start of the text. -/
theorem prefix_of_afterWords? {word t rest : Text} {words : List Text}
    (h : afterWords? (word :: words) t = some rest) : word <+: t.map foldCase := by
  cases words with
  | nil => exact prefix_of_afterWord? h
  | cons next words =>
    rw [afterWords?] at h
    · split at h
      · next hword => exact prefix_of_afterWord? hword
      · cases h
    · simp

/-- A word that has been found stands before what follows it, letter case ignored. -/
theorem exists_front_of_afterWord? {word t rest : Text} (h : afterWord? word t = some rest) :
    ∃ front, t = front ++ rest ∧ front.map foldCase = word := by
  induction word generalizing t with
  | nil =>
    cases h
    exact ⟨[], rfl, rfl⟩
  | cons w word ih =>
    cases t with
    | nil => cases h
    | cons c t =>
      rw [afterWord?] at h
      split at h
      · next hw =>
        obtain ⟨front, rfl, hfront⟩ := ih h
        exact ⟨c :: front, rfl, by rw [List.map_cons, hw, hfront]⟩
      · cases h

/-- A word is found in whatever the text is followed by. -/
theorem afterWord?_append {word t rest : Text} (h : afterWord? word t = some rest) (more : Text) :
    afterWord? word (t ++ more) = some (rest ++ more) := by
  induction word generalizing t with
  | nil =>
    cases h
    rfl
  | cons w word ih =>
    cases t with
    | nil => cases h
    | cons c t =>
      rw [afterWord?] at h
      rw [List.cons_append, afterWord?]
      split at h
      · next hw => rw [if_pos hw, ih h]
      · cases h

/-- The letter D is a word character in either case, and no other character counts as `d`. -/
theorem isWord_of_foldCase_eq_d {c : Char} (h : foldCase c = 'd') : isWord c = true := by
  have hcapital : ∀ n ≤ 'Z'.toNat, Char.ofNat (n + 32) = 'd' → n = 'D'.toNat := by decide
  have hcode : c.toNat = 'D'.toNat ∨ c.toNat = 'd'.toNat := by
    unfold foldCase at h
    split at h
    · next hletter => exact .inl (hcapital c.toNat hletter.2 h)
    · split_ifs at h
      · cases h
      · cases h
      · cases h
      · exact .inr (congrArg Char.toNat h)
  rw [isWord]
  rcases hcode with hcode | hcode
  · rw [hcode]
    decide +kernel
  · rw [hcode]
    decide +kernel

end Text

namespace Keyword

/-- The words that a keyword can begin with. -/
def firstWords (k : Keyword) : List Text :=
  k.spellings.filterMap List.head?

/-- A keyword that opens a text has one of its first words at the start of the text. -/
theorem exists_prefix_of_opens {k : Keyword} {t : Text} (h : k.opens t = true) :
    ∃ word ∈ k.firstWords, word <+: t.map Text.foldCase := by
  obtain ⟨rest, hafter⟩ := Option.isSome_iff_exists.mp h
  obtain ⟨phrase, hphrase, hfound⟩ := List.exists_of_findSome?_eq_some hafter
  obtain ⟨hwords, -⟩ := Option.filter_eq_some_iff.mp hfound
  have hne : ∀ k : Keyword, ∀ phrase ∈ k.spellings, phrase ≠ [] := by
    intro k
    cases k <;> decide
  obtain ⟨word, words, rfl⟩ := List.exists_cons_of_ne_nil (hne k phrase hphrase)
  exact ⟨word, List.mem_filterMap.mpr ⟨_, hphrase, rfl⟩, Text.prefix_of_afterWords? hwords⟩

/-- No keyword opens the empty text. -/
theorem ne_nil_of_opens {k : Keyword} {t : Text} (h : k.opens t = true) : t ≠ [] := by
  rintro rfl
  cases k <;> cases h

/-- `OR` opens no text that `ORDER BY` opens, for there a letter goes on with the word. -/
theorem not_opens_orderBy_of_disjunction {t : Text} (h : disjunction.opens t = true) :
    orderBy.opens t = false := by
  by_contra horder
  rw [Bool.not_eq_false] at horder
  obtain ⟨rest, hafter⟩ := Option.isSome_iff_exists.mp h
  obtain ⟨phrase, hphrase, hfound⟩ := List.exists_of_findSome?_eq_some hafter
  obtain rfl : phrase = ["or".toList] := by simpa [spellings] using hphrase
  obtain ⟨hword, hends⟩ := Option.filter_eq_some_iff.mp hfound
  obtain ⟨front, rfl, hfront⟩ := Text.exists_front_of_afterWord? hword
  obtain ⟨word, hmem, hprefix⟩ := exists_prefix_of_opens horder
  obtain rfl : word = "order".toList := by simpa [firstWords, spellings] using hmem
  rw [List.map_append, hfront] at hprefix
  obtain ⟨later, hlater⟩ := hprefix
  cases rest with
  | nil => simp at hlater
  | cons c rest =>
    have hd : Text.foldCase c = 'd' := by
      simp at hlater
      exact hlater.1.symm
    simp [Text.startsWord, Text.isWord_of_foldCase_eq_d hd] at hends

/-- At most one keyword opens a text. -/
theorem eq_of_opens {k k' : Keyword} {t : Text} (h : k.opens t = true) (h' : k'.opens t = true) :
    k' = k := by
  obtain ⟨word, hword, hprefix⟩ := exists_prefix_of_opens h
  obtain ⟨word', hword', hprefix'⟩ := exists_prefix_of_opens h'
  have hall (k : Keyword) : k ∈ Fragment.keywords := by cases k <;> decide
  have hdistinct : ∀ k ∈ Fragment.keywords, ∀ k' ∈ Fragment.keywords, ∀ word ∈ k.firstWords,
      ∀ word' ∈ k'.firstWords, word <+: word' → k' = k ∨ (k = disjunction ∧ k' = orderBy) := by
    decide +kernel
  rcases List.prefix_or_prefix_of_prefix hprefix hprefix' with hle | hle
  · rcases hdistinct k (hall k) k' (hall k') word hword word' hword' hle with heq | ⟨rfl, rfl⟩
    · exact heq
    · rw [not_opens_orderBy_of_disjunction h] at h'
      cases h'
  · rcases hdistinct k' (hall k') k (hall k) word' hword' word hword hle with heq | ⟨rfl, rfl⟩
    · exact heq.symm
    · rw [not_opens_orderBy_of_disjunction h'] at h
      cases h

/-- The first of some keywords is one that opens the text, if it is the only one that does. -/
theorem first?_eq_some {ks : List Keyword} {k : Keyword} {t rest : Text} (hk : k ∈ ks)
    (hafter : k.after? t = some rest) (hunique : ∀ k' ∈ ks, k'.opens t = true → k' = k) :
    first? ks t = some (k, Text.trim rest) := by
  induction ks with
  | nil => cases hk
  | cons first ks ih =>
    rw [List.forall_mem_cons] at hunique
    rw [first?, List.findSome?_cons]
    cases hfirst : first.after? t with
    | some rest' =>
      obtain rfl : first = k := hunique.1 (by rw [opens, hfirst]; rfl)
      rw [hafter] at hfirst
      cases hfirst
      rfl
    | none =>
      have hmem : k ∈ ks := by
        rcases List.mem_cons.mp hk with rfl | hmem
        · rw [hafter] at hfirst
          cases hfirst
        · exact hmem
      exact ih hmem hunique.2

/-- A keyword that is found is one of those tried, and what it applies to follows it. -/
theorem exists_after?_of_first? {ks : List Keyword} {k : Keyword} {t operand : Text}
    (h : first? ks t = some (k, operand)) :
    k ∈ ks ∧ ∃ rest, k.after? t = some rest ∧ operand = Text.trim rest := by
  obtain ⟨k', hmem, hfound⟩ := List.exists_of_findSome?_eq_some h
  obtain ⟨rest, hafter, heq⟩ := Option.map_eq_some_iff.mp hfound
  cases heq
  exact ⟨hmem, rest, hafter, rfl⟩

/-- The keyword that is found first in a text opens it. -/
theorem opens_of_first? {ks : List Keyword} {k : Keyword} {t operand : Text}
    (h : first? ks t = some (k, operand)) : k.opens t = true := by
  obtain ⟨-, rest, hafter, -⟩ := exists_after?_of_first? h
  rw [opens, hafter]
  rfl

/-- None of some keywords is found when none of them opens the text. -/
theorem first?_eq_none_iff {ks : List Keyword} {t : Text} :
    first? ks t = none ↔ ∀ k ∈ ks, k.opens t = false := by
  simp [first?, opens]

end Keyword

namespace Statement

/-- A keyword that opens a line is the one under which the line is read. -/
theorem keyword?_of_opens {k : Keyword} {t : Text} (hk : k ∈ keywords) (h : k.opens t = true) :
    ∃ operand, keyword? t = some (k, operand) := by
  obtain ⟨rest, hafter⟩ := Option.isSome_iff_exists.mp h
  exact ⟨_, Keyword.first?_eq_some hk hafter fun k' _ h' => Keyword.eq_of_opens h h'⟩

/-- A line is read under the keyword that it has an operand for. -/
theorem keyword?_of_operand {k : Keyword} {t operand : Text} (hk : k ∈ keywords)
    (h : k.operand t = .ok operand) : keyword? t = some (k, operand) := by
  rw [Keyword.operand] at h
  split at h
  · next rest hafter =>
    cases h
    have hopens : k.opens t = true := by rw [Keyword.opens, hafter]; rfl
    exact Keyword.first?_eq_some hk hafter fun k' _ h' => Keyword.eq_of_opens hopens h'
  · cases h

/-- A line is read under no keyword when none of them opens it. -/
theorem keyword?_eq_none_iff {t : Text} : keyword? t = none ↔ ∀ k ∈ keywords, k.opens t = false :=
  Keyword.first?_eq_none_iff

end Statement

namespace Fragment

/-- A fragment goes where the keyword says that opens it, trimmed. -/
theorem add_of_keyword? {c : Clauses} {fragment operand : Text} {k : Keyword}
    (h : keyword? (Text.trim fragment) = some (k, operand)) :
    add c fragment = route c (Text.trim fragment) k operand := by
  have hne : Text.trim fragment ≠ [] := by
    intro hnil
    rw [hnil] at h
    cases h
  rw [add, if_neg (by simpa using hne), h]

end Fragment

end SqlComposer
