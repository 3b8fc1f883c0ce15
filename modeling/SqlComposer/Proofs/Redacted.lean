import Mathlib.Data.List.Forall2
import SqlComposer.Proofs.SecretKeys
import SqlComposer.Value.Key

/-!
# What redaction keeps

A mapping whose keys are text, down to any depth, is redacted without failure. Every mapping that
is reached by keys that are not sensitive keeps its keys in their order. Under a sensitive key the
replacement is found, whatever was there; a value under another key is the same unless it is itself
a mapping with a sensitive key inside. Redacting a second time changes nothing.
-/

namespace SqlComposer

/-- A property of all values holds if it holds of a mapping with the values in it, and of each value
that is no mapping. -/
@[elab_as_elim]
theorem Value.map_induction {motive : Value → Prop}
    (map : ∀ entries : Entries, (∀ entry ∈ entries, motive entry.2) → motive (.map entries))
    (other : ∀ v, (∀ entries, v ≠ .map entries) → motive v) (v : Value) : motive v := by
  by_cases h : ∃ entries, v = .map entries
  · obtain ⟨entries, rfl⟩ := h
    exact map entries fun entry _ => map_induction map other entry.2
  · exact other v fun entries hv => h ⟨entries, hv⟩
termination_by v
decreasing_by
  next hv hmem =>
  subst hv
  have hentry := List.sizeOf_lt_of_mem hmem
  have hvalue : sizeOf entry.2 < sizeOf entry := by
    obtain ⟨key, value⟩ := entry
    simp only [Prod.mk.sizeOf_spec]
    omega
  simp only [Value.map.sizeOf_spec]
  omega

namespace Redaction

/-! ## Entries at any depth -/

mutual

/-- The entries inside a value, down to any depth of mappings inside mappings. -/
def innerEntries : Value → Entries
  | .map entries => allEntries entries
  | _ => []

/-- Entries with those inside their values. -/
def allEntries : List (Value × Value) → Entries
  | [] => []
  | (key, value) :: entries => (key, value) :: (innerEntries value ++ allEntries entries)

end

/-- What is no mapping has no entries inside. -/
theorem innerEntries_of_ne_map {v : Value} (h : ∀ entries, v ≠ .map entries) :
    innerEntries v = [] := by
  cases v with
  | map entries => exact (h entries rfl).elim
  | _ => rfl

/-- An entry at any depth is one of the entries, or stands inside the value of one. -/
theorem mem_allEntries {entry : Value × Value} {entries : Entries} :
    entry ∈ allEntries entries ↔
      ∃ outer ∈ entries, entry = outer ∨ entry ∈ innerEntries outer.2 := by
  induction entries with
  | nil => simp [allEntries]
  | cons first entries ih => simp [allEntries, ih, or_assoc]

/-- What holds of each entry inside a mapping holds of its own entries and inside their values. -/
theorem forall_innerEntries_map {entries : Entries} {p : Value × Value → Prop} :
    (∀ entry ∈ innerEntries (.map entries), p entry) ↔
      ∀ outer ∈ entries, p outer ∧ ∀ entry ∈ innerEntries outer.2, p entry := by
  simp only [innerEntries, mem_allEntries]
  constructor
  · intro h outer houter
    exact ⟨h outer ⟨outer, houter, .inl rfl⟩, fun entry hentry =>
      h entry ⟨outer, houter, .inr hentry⟩⟩
  · rintro h entry ⟨outer, houter, rfl | hentry⟩
    · exact (h entry houter).1
    · exact (h outer houter).2 entry hentry

/-- Every key inside a value is text, down to any depth of mappings inside mappings. -/
def IsTextKeyed (v : Value) : Prop :=
  ∀ entry ∈ innerEntries v, entry.1.text?.isSome = true

instance (v : Value) : Decidable (IsTextKeyed v) :=
  inferInstanceAs (Decidable (∀ entry ∈ innerEntries v, entry.1.text?.isSome = true))

/-- A mapping has text keys only exactly when its own keys are text and those inside its values are.
-/
theorem isTextKeyed_map_iff {entries : Entries} :
    IsTextKeyed (.map entries) ↔
      ∀ entry ∈ entries, entry.1.text?.isSome = true ∧ IsTextKeyed entry.2 :=
  forall_innerEntries_map

/-- What is no mapping has no keys at all. -/
theorem isTextKeyed_of_ne_map {v : Value} (h : ∀ entries, v ≠ .map entries) : IsTextKeyed v := by
  simp [IsTextKeyed, innerEntries_of_ne_map h]

/-- A value is a mapping with a sensitive key in it, at some depth of mappings inside mappings. -/
def HoldsSensitive (v : Value) : Prop :=
  ∃ entry ∈ innerEntries v, IsSensitiveKey entry.1

/-- A mapping holds nothing sensitive exactly when none of its keys is, nor a key inside its values.
-/
theorem not_holdsSensitive_map_iff {entries : Entries} :
    ¬HoldsSensitive (.map entries) ↔
      ∀ entry ∈ entries, ¬IsSensitiveKey entry.1 ∧ ¬HoldsSensitive entry.2 := by
  simp only [HoldsSensitive, not_exists, not_and]
  exact forall_innerEntries_map

/-! ## Masks -/

mutual

/-- A value with the replacement under each sensitive key in it. -/
def maskedValue : Value → Value
  | .map entries => .map (masked entries)
  | v => v

/-- Entries with the replacement under each sensitive key. -/
def masked : List (Value × Value) → Entries
  | [] => []
  | (key, value) :: entries =>
    (key, if IsSensitiveKey key then redacted else maskedValue value) :: masked entries

end

/-- An entry with the replacement if its key is sensitive, and else with the replacement under each
sensitive key in its value. -/
def maskedEntry (entry : Value × Value) : Value × Value :=
  (entry.1, if IsSensitiveKey entry.1 then redacted else maskedValue entry.2)

/-- Entries are masked one by one. -/
theorem masked_eq_map (entries : Entries) : masked entries = entries.map maskedEntry := by
  induction entries with
  | nil => rfl
  | cons entry entries ih => rw [masked, ih, List.map_cons, maskedEntry]

/-- What is no mapping stays as it is. -/
theorem maskedValue_of_ne_map {v : Value} (h : ∀ entries, v ≠ .map entries) :
    maskedValue v = v := by
  cases v with
  | map entries => exact (h entries rfl).elim
  | _ => rfl

/-- An entry of a sensitive key is masked. -/
theorem maskedEntry_of_sensitive {entry : Value × Value} (h : IsSensitiveKey entry.1) :
    maskedEntry entry = (entry.1, redacted) := by
  rw [maskedEntry, if_pos h]

/-- An entry of another key keeps its key, and its value is masked inside. -/
theorem maskedEntry_of_not_sensitive {entry : Value × Value} (h : ¬IsSensitiveKey entry.1) :
    maskedEntry entry = (entry.1, maskedValue entry.2) := by
  rw [maskedEntry, if_neg h]

/-- Redaction masks entries whose keys are text if it masks their values. -/
theorem redact_eq_ok_of_values {entries : Entries}
    (hkeys : ∀ entry ∈ entries, entry.1.text?.isSome = true)
    (hvalues : ∀ entry ∈ entries, redactValue entry.2 = .ok (maskedValue entry.2)) :
    redact entries = .ok (masked entries) := by
  induction entries with
  | nil => rfl
  | cons entry entries ih =>
    obtain ⟨hkey, hkeys⟩ := List.forall_mem_cons.mp hkeys
    obtain ⟨hvalue, hvalues⟩ := List.forall_mem_cons.mp hvalues
    rw [redact, isSensitiveKey_eq_ok hkey, ih hkeys hvalues, hvalue, masked]
    by_cases h : IsSensitiveKey entry.1
    · simp [h, bind, Except.bind, pure, Except.pure]
    · simp [h, bind, Except.bind, pure, Except.pure]

/-- Redaction masks a value in which every key is text. -/
theorem redactValue_eq_ok {v : Value} (h : IsTextKeyed v) :
    redactValue v = .ok (maskedValue v) := by
  -- Redaction enters nothing but mappings, so what lists and other values hold needs no hypothesis.
  induction v using Value.map_induction with
  | map entries ih =>
    have hentries := isTextKeyed_map_iff.mp h
    rw [redactValue, redact_eq_ok_of_values (fun entry hentry => (hentries entry hentry).1)
      fun entry hentry => ih entry hentry (hentries entry hentry).2, maskedValue]
    rfl
  | other v hv =>
    rw [maskedValue_of_ne_map hv]
    cases v with
    | map entries => exact (hv entries rfl).elim
    | _ => rfl

/-- Redaction masks a mapping in which every key is text. -/
theorem redact_eq_ok {entries : Entries} (h : IsTextKeyed (.map entries)) :
    redact entries = .ok (masked entries) :=
  have hentries := isTextKeyed_map_iff.mp h
  redact_eq_ok_of_values (fun entry hentry => (hentries entry hentry).1)
    fun entry hentry => redactValue_eq_ok (hentries entry hentry).2

/-! ## A second time -/

/-- A mask leaves the keys as they are. -/
theorem IsTextKeyed.maskedValue {v : Value} (h : IsTextKeyed v) :
    IsTextKeyed (maskedValue v) := by
  induction v using Value.map_induction with
  | map entries ih =>
    rw [Redaction.maskedValue, isTextKeyed_map_iff, masked_eq_map, List.forall_mem_map]
    intro entry hentry
    obtain ⟨hkey, hvalue⟩ := isTextKeyed_map_iff.mp h entry hentry
    by_cases hsensitive : IsSensitiveKey entry.1
    · rw [maskedEntry_of_sensitive hsensitive]
      exact ⟨hkey, isTextKeyed_of_ne_map nofun⟩
    · rw [maskedEntry_of_not_sensitive hsensitive]
      exact ⟨hkey, ih entry hentry hvalue⟩
  | other v hv => rwa [maskedValue_of_ne_map hv]

/-- A second mask changes nothing. -/
theorem maskedValue_maskedValue (v : Value) : maskedValue (maskedValue v) = maskedValue v := by
  induction v using Value.map_induction with
  | map entries ih =>
    simp only [maskedValue, masked_eq_map, List.map_map]
    congr 1
    refine List.map_congr_left fun entry hentry => ?_
    by_cases hsensitive : IsSensitiveKey entry.1
    · simp [maskedEntry_of_sensitive, hsensitive]
    · simp [maskedEntry_of_not_sensitive, hsensitive, ih entry hentry]
  | other v hv => simp [maskedValue_of_ne_map hv]

/-! ## Without sensitive keys -/

/-- A value that is no mapping with a sensitive key in it stays as it is. -/
theorem maskedValue_of_not_holdsSensitive {v : Value} (h : ¬HoldsSensitive v) :
    maskedValue v = v := by
  induction v using Value.map_induction with
  | map entries ih =>
    have hentries := not_holdsSensitive_map_iff.mp h
    rw [maskedValue, masked_eq_map]
    congr 1
    refine (List.map_congr_left fun entry hentry => ?_).trans (List.map_id _)
    obtain ⟨hkey, hvalue⟩ := hentries entry hentry
    rw [maskedEntry_of_not_sensitive hkey, ih entry hentry hvalue]
    rfl
  | other v hv => exact maskedValue_of_ne_map hv

/-! ## Levels -/

/-- The mapping that a path of keys leads to. -/
def level? : List Text → Entries → Option Entries
  | [], entries => some entries
  | key :: path, entries =>
    match entries.atText? key with
    | some (.map inner) => level? path inner
    | _ => none

/-- What stands under a key that is not sensitive is masked. -/
theorem atText?_masked {key : Text} (h : ¬MentionsSecret key) (entries : Entries) :
    (masked entries).atText? key = (entries.atText? key).map maskedValue := by
  have hkeys : (fun entry : Value × Value => entry.1.isText key) ∘ maskedEntry =
      fun entry => entry.1.isText key := rfl
  simp only [Entries.atText?, masked_eq_map, List.find?_map, hkeys, Option.map_map]
  refine Option.map_congr fun entry hentry => ?_
  have htext : entry.1.text? = some key := by
    simpa [Value.isText] using List.find?_some hentry
  have hkey : ¬IsSensitiveKey entry.1 := by
    rintro ⟨t, ht, hmentions⟩
    rw [htext, Option.some.injEq] at ht
    exact h (ht ▸ hmentions)
  simp [maskedEntry_of_not_sensitive hkey]

/-- A mapping that is reached by keys that are not sensitive is masked. -/
theorem level?_masked {path : List Text} (h : ∀ key ∈ path, ¬MentionsSecret key)
    (entries : Entries) : level? path (masked entries) = (level? path entries).map masked := by
  induction path generalizing entries with
  | nil => rfl
  | cons key path ih =>
    obtain ⟨hkey, hpath⟩ := List.forall_mem_cons.mp h
    rw [level?, level?, atText?_masked hkey]
    match entries.atText? key with
    | none => rfl
    | some v =>
      cases v with
      | map inner => exact ih hpath inner
      | _ => rfl

/-- What becomes of an entry of a mapping that is redacted. -/
structure IsKept (entry kept : Value × Value) : Prop where
  /-- The key stays. -/
  key_eq : kept.1 = entry.1
  /-- Under a sensitive key stands the replacement. -/
  hidden : IsSensitiveKey entry.1 → kept.2 = redacted
  /-- Under another key the value stays, unless it is a mapping with a sensitive key in it. -/
  same : ¬IsSensitiveKey entry.1 → ¬HoldsSensitive entry.2 → kept.2 = entry.2

/-- A masked entry is kept as its key says. -/
theorem isKept_maskedEntry (entry : Value × Value) : IsKept entry (maskedEntry entry) where
  key_eq := rfl
  hidden h := by rw [maskedEntry_of_sensitive h]
  same h hvalue := by rw [maskedEntry_of_not_sensitive h, maskedValue_of_not_holdsSensitive hvalue]

/-- A mapping whose keys are text is redacted without failure, and a second time without effect. A
path of keys that are not sensitive leads to a mapping in the redacted one exactly if it does so in
the one before; both have the same keys in the same order, with the replacement under each
sensitive key, and with the same value under each other one, unless that is a mapping with a
sensitive key in it. -/
theorem redact_keeps {entries : Entries} (h : IsTextKeyed (.map entries)) :
    ∃ result, redact entries = .ok result ∧ redact result = .ok result ∧
      ∀ path : List Text, (∀ key ∈ path, ¬MentionsSecret key) →
        Option.Rel (List.Forall₂ IsKept) (level? path entries) (level? path result) := by
  have hmasked : IsTextKeyed (.map (masked entries)) := h.maskedValue
  have htwice : masked (masked entries) = masked entries :=
    Value.map.inj (maskedValue_maskedValue (.map entries))
  refine ⟨masked entries, redact_eq_ok h, ?_, fun path hpath => ?_⟩
  · rw [redact_eq_ok hmasked, htwice]
  · rw [level?_masked hpath]
    cases level? path entries with
    | none => exact .none
    | some level =>
      refine .some ?_
      rw [masked_eq_map, List.forall₂_map_right_iff, List.forall₂_same]
      exact fun entry _ => isKept_maskedEntry entry

/-- A mapping under a sensitive key, one with a sensitive key in it, and one in a list. -/
theorem redact_keeps_nested :
    let scheme : Value × Value := (.text "scheme".toList, .text "bearer".toList)
    let hosts : Value × Value :=
      (.text "hosts".toList, .list [.map [(.text "password".toList, .text "x".toList)]])
    let entries : Entries :=
      [(.text "auth".toList, .map [(.text "API_KEY".toList, .text "k".toList), scheme]),
        (.text "access_token".toList, .map [(.text "id".toList, .int 1)]), hosts]
    let result : Entries :=
      [(.text "auth".toList, .map [(.text "API_KEY".toList, redacted), scheme]),
        (.text "access_token".toList, redacted), hosts]
    let path := ["auth".toList]
    IsTextKeyed (.map entries) ∧ (∀ key ∈ path, ¬MentionsSecret key) ∧
      redact entries = .ok result ∧ redact result = .ok result ∧
      Option.Rel (List.Forall₂ IsKept) (level? path entries) (level? path result) := by
  intro scheme hosts entries result path
  have htext : IsTextKeyed (.map entries) := by decide
  have hpath : ∀ key ∈ path, ¬MentionsSecret key := by decide
  have hresult : redact entries = .ok result := by with_unfolding_all rfl
  obtain ⟨result', hresult', htwice, hlevels⟩ := redact_keeps htext
  obtain rfl : result' = result := Except.ok.inj (hresult'.symm.trans hresult)
  exact ⟨htext, hpath, hresult, htwice, hlevels path hpath⟩

end Redaction

end SqlComposer
