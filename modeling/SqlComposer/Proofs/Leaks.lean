import SqlComposer.Proofs.Redacted

/-!
# What redaction lets through

Two mappings whose keys are text are redacted alike exactly if they differ under sensitive keys
only, where these are reached by mappings inside mappings. So the value of a key that names a secret
can be told from the redacted mapping in two cases: each secret word in the key stands behind a line
feed, or a list is on the way to the key. In all other mappings redaction lets nothing through of
what stands under the keys that name secrets.
-/

namespace SqlComposer

/-! ## Lists side by side -/

section SideBySide

variable {α β : Type}

/-- Two lists have the same images if they have so item by item. -/
theorem map_eq_map_iff_zip {as bs : List α} {f : α → β} :
    as.map f = bs.map f ↔
      as.length = bs.length ∧ ∀ pair ∈ as.zip bs, f pair.1 = f pair.2 := by
  rw [← List.forall₂_eq_eq_eq, List.forall₂_map_left_iff, List.forall₂_map_right_iff,
    List.forall₂_iff_zip, Prod.forall]

/-- Two lists of the same length are the same if they are so item by item. -/
theorem eq_of_forall_mem_zip {as bs : List α} (hlength : as.length = bs.length)
    (h : ∀ pair ∈ as.zip bs, pair.1 = pair.2) : as = bs := by
  have hmap : as.map id = bs.map id := map_eq_map_iff_zip.mpr ⟨hlength, h⟩
  rwa [List.map_id, List.map_id] at hmap

/-- What holds of each item beside itself holds of a list beside itself. -/
theorem forall_mem_zip_self {as : List α} {p : α × α → Prop} (h : ∀ a ∈ as, p (a, a)) :
    ∀ pair ∈ as.zip as, p pair := by
  have hsame : List.Forall₂ (fun a b => p (a, b)) as as := List.forall₂_same.mpr h
  rintro ⟨a, b⟩ hpair
  exact (List.forall₂_iff_zip.mp hsame).2 hpair

end SideBySide

/-! ## Values that differ under some keys -/

/-- Two values differ only under keys that hide. Such keys are looked for in mappings inside
mappings, and in the items of lists too when lists are searched. -/
inductive Value.DifferOnlyUnder (hides : Value → Prop) (searchesLists : Bool) :
    Value → Value → Prop
  /-- They do not differ. -/
  | same (v : Value) : DifferOnlyUnder hides searchesLists v v
  /-- They are lists of the same length and differ so item by item. -/
  | list {items items' : List Value} (hlists : searchesLists = true)
      (hlength : items.length = items'.length)
      (hitems : ∀ pair ∈ items.zip items', DifferOnlyUnder hides searchesLists pair.1 pair.2) :
      DifferOnlyUnder hides searchesLists (.list items) (.list items')
  /-- They are mappings with the same keys in the same order and differ so entry by entry, apart
  from the values under keys that hide. -/
  | map {entries entries' : Entries} (hkeys : entries.keys = entries'.keys)
      (hvalues : ∀ pair ∈ entries.zip entries', ¬hides pair.1.1 →
        DifferOnlyUnder hides searchesLists pair.1.2 pair.2.2) :
      DifferOnlyUnder hides searchesLists (.map entries) (.map entries')

namespace Value.DifferOnlyUnder

variable {hides : Value → Prop} {searchesLists : Bool} {v w : Value}

/-- Mappings that differ in a single value differ only under keys that hide if the values do, or if
the key hides. -/
theorem replaceValue {key : Value} (h : ¬hides key → DifferOnlyUnder hides searchesLists v w)
    (before after : Entries) :
    DifferOnlyUnder hides searchesLists (.map (before ++ (key, v) :: after))
      (.map (before ++ (key, w) :: after)) := by
  refine .map (by simp [Entries.keys]) ?_
  rw [List.zip_append rfl, List.zip_cons_cons, List.forall_mem_append, List.forall_mem_cons]
  exact ⟨forall_mem_zip_self fun entry _ _ => .same entry.2, h,
    forall_mem_zip_self fun entry _ _ => .same entry.2⟩

/-- Lists that differ in a single item differ only under keys that hide if the items do. -/
theorem replaceItem (h : DifferOnlyUnder hides true v w) (before after : List Value) :
    DifferOnlyUnder hides true (.list (before ++ v :: after)) (.list (before ++ w :: after)) := by
  refine .list rfl (by simp) ?_
  rw [List.zip_append rfl, List.zip_cons_cons, List.forall_mem_append, List.forall_mem_cons]
  exact ⟨forall_mem_zip_self fun item _ => .same item, h,
    forall_mem_zip_self fun item _ => .same item⟩

end Value.DifferOnlyUnder

namespace Redaction

/-- Two entries are masked alike if their keys are the same, and the masks of their values unless
the key is sensitive. -/
theorem maskedEntry_eq_iff {entry entry' : Value × Value} :
    maskedEntry entry = maskedEntry entry' ↔ entry.1 = entry'.1 ∧
      (¬IsSensitiveKey entry.1 → maskedValue entry.2 = maskedValue entry'.2) := by
  rw [maskedEntry, maskedEntry, Prod.mk.injEq]
  refine and_congr_right fun hkey => ?_
  rw [← hkey]
  by_cases h : IsSensitiveKey entry.1 <;> simp [h]

/-- Two mappings are masked alike if their keys are the same, and the masks of the values under keys
that are not sensitive. -/
theorem masked_eq_masked_iff {entries entries' : Entries} :
    masked entries = masked entries' ↔ entries.keys = entries'.keys ∧
      ∀ pair ∈ entries.zip entries', ¬IsSensitiveKey pair.1.1 →
        maskedValue pair.1.2 = maskedValue pair.2.2 := by
  simp only [masked_eq_map, Entries.keys, map_eq_map_iff_zip, maskedEntry_eq_iff]
  constructor
  · rintro ⟨hlength, hentries⟩
    exact ⟨⟨hlength, fun pair hpair => (hentries pair hpair).1⟩, fun pair hpair =>
      (hentries pair hpair).2⟩
  · rintro ⟨⟨hlength, hkeys⟩, hvalues⟩
    exact ⟨hlength, fun pair hpair => ⟨hkeys pair hpair, hvalues pair hpair⟩⟩

/-- A value whose mask is a mapping is one. -/
theorem exists_map_of_maskedValue {v : Value} {entries : Entries}
    (h : maskedValue v = .map entries) : ∃ inner, v = .map inner ∧ masked inner = entries := by
  cases v with
  | map inner => exact ⟨inner, rfl, Value.map.inj h⟩
  | _ => cases h

/-- Two values are masked alike exactly if they differ under sensitive keys only, where these are
reached by mappings inside mappings. -/
theorem maskedValue_eq_iff {v w : Value} :
    maskedValue v = maskedValue w ↔ v.DifferOnlyUnder IsSensitiveKey false w := by
  constructor
  · intro h
    induction v using Value.map_induction generalizing w with
    | map entries ih =>
      obtain ⟨entries', rfl, hmasked⟩ := exists_map_of_maskedValue h.symm
      obtain ⟨hkeys, hvalues⟩ := masked_eq_masked_iff.mp hmasked.symm
      exact .map hkeys fun pair hpair hkey =>
        ih pair.1 (List.of_mem_zip hpair).1 (hvalues pair hpair hkey)
    | other v hv =>
      rw [maskedValue_of_ne_map hv] at h
      have hw : ∀ entries, w ≠ .map entries := by
        rintro entries rfl
        exact hv _ h
      rw [maskedValue_of_ne_map hw] at h
      exact h ▸ .same v
  · intro h
    induction h with
    | same v => rfl
    -- A list is shown as it is, so lists that differ are never masked alike.
    | list hlists => cases hlists
    | map hkeys _ ih => exact congrArg Value.map (masked_eq_masked_iff.mpr ⟨hkeys, ih⟩)

/-! ## Secrets in the open -/

/-- A key inside a value names a secret, where it is reached by mappings and lists. -/
inductive HoldsSecret : Value → Prop
  /-- A key of the mapping names one. -/
  | key {entries : Entries} {key value : Value} (hentry : (key, value) ∈ entries)
      (hsecret : IsSecretKey key) : HoldsSecret (.map entries)
  /-- A key inside a value of the mapping names one. -/
  | value {entries : Entries} {key value : Value} (hentry : (key, value) ∈ entries)
      (hvalue : HoldsSecret value) : HoldsSecret (.map entries)
  /-- A key inside an item of the list names one. -/
  | item {items : List Value} {item : Value} (hmem : item ∈ items) (hitem : HoldsSecret item) :
      HoldsSecret (.list items)

/-- A key inside a value names a secret and redaction does not reach it: it is not sensitive, since
a line feed stands before each secret word, or a list is on the way to it; and it is not below a
sensitive key. -/
inductive Exposes : Value → Prop
  /-- A key of the mapping names a secret and is not sensitive. -/
  | key {entries : Entries} {key value : Value} (hentry : (key, value) ∈ entries)
      (hsecret : IsSecretKey key) (hopen : ¬IsSensitiveKey key) : Exposes (.map entries)
  /-- A value of the mapping has such a key inside, and its own key is not sensitive. -/
  | value {entries : Entries} {key value : Value} (hentry : (key, value) ∈ entries)
      (hopen : ¬IsSensitiveKey key) (hvalue : Exposes value) : Exposes (.map entries)
  /-- A key inside an item of the list names a secret. -/
  | item {items : List Value} {item : Value} (hmem : item ∈ items) (hitem : HoldsSecret item) :
      Exposes (.list items)

/-- Values without secrets are the same when they differ only under keys that name one. -/
theorem eq_of_not_holdsSecret {v w : Value} (h : v.DifferOnlyUnder IsSecretKey true w)
    (hv : ¬HoldsSecret v) : v = w := by
  induction h with
  | same v => rfl
  | list _ hlength _ ih =>
    congr 1
    exact eq_of_forall_mem_zip hlength fun pair hpair =>
      ih pair hpair fun hitem => hv (.item (List.of_mem_zip hpair).1 hitem)
  | map hkeys _ ih =>
    obtain ⟨hlength, hkeys⟩ := map_eq_map_iff_zip.mp hkeys
    congr 1
    refine eq_of_forall_mem_zip hlength fun pair hpair => Prod.ext (hkeys pair hpair) ?_
    have hentry := (List.of_mem_zip hpair).1
    exact ih pair hpair (fun hsecret => hv (.key hentry hsecret)) fun hvalue =>
      hv (.value hentry hvalue)

/-- Values that differ only under keys that name secrets differ only under sensitive keys, if no
secret is in the open. -/
theorem differOnlyUnder_sensitive_of_not_exposes {v w : Value}
    (h : v.DifferOnlyUnder IsSecretKey true w) (hv : ¬Exposes v) :
    v.DifferOnlyUnder IsSensitiveKey false w := by
  induction h with
  | same v => exact .same v
  | @list items items' hlists hlength hitems ih =>
    -- Each secret in a list is in the open, so there is none and the lists are the same.
    have hnone : ¬HoldsSecret (.list items) := fun hsecret => by
      cases hsecret with
      | item hmem hitem => exact hv (.item hmem hitem)
    rw [eq_of_not_holdsSecret (.list hlists hlength hitems) hnone]
    exact .same _
  | map hkeys _ ih =>
    refine .map hkeys fun pair hpair hopen => ?_
    have hentry := (List.of_mem_zip hpair).1
    exact ih pair hpair (fun hsecret => hv (.key hentry hsecret hopen)) fun hvalue =>
      hv (.value hentry hopen hvalue)

/-! ## Telling secrets apart -/

/-- There is a value other than a given one that is no mapping. -/
theorem exists_ne_of_ne_map (v : Value) : ∃ w, (∀ entries, w ≠ .map entries) ∧ w ≠ v := by
  by_cases h : Value.null = v
  · exact ⟨.bool true, nofun, by simp [← h]⟩
  · exact ⟨.null, nofun, h⟩

/-- A value with a secret can be changed under a key that names one. -/
theorem HoldsSecret.exists_differ {v : Value} (h : HoldsSecret v) :
    ∃ w, v.DifferOnlyUnder IsSecretKey true w ∧ w ≠ v := by
  induction h with
  | @key entries key value hentry hsecret =>
    obtain ⟨before, after, rfl⟩ := List.append_of_mem hentry
    obtain ⟨w, -, hw⟩ := exists_ne_of_ne_map value
    exact ⟨_, .replaceValue (fun hopen => absurd hsecret hopen) before after, by simpa using hw⟩
  | value hentry _ ih =>
    obtain ⟨before, after, rfl⟩ := List.append_of_mem hentry
    obtain ⟨w, hdiffer, hw⟩ := ih
    exact ⟨_, .replaceValue (fun _ => hdiffer) before after, by simpa using hw⟩
  | item hmem _ ih =>
    obtain ⟨before, after, rfl⟩ := List.append_of_mem hmem
    obtain ⟨w, hdiffer, hw⟩ := ih
    exact ⟨_, .replaceItem hdiffer before after, by simpa using hw⟩

/-- Under a key that is not sensitive, values that are masked differently make mappings that are
masked differently. -/
theorem maskedValue_replaceValue_ne {key v w : Value} (hkey : ¬IsSensitiveKey key)
    (h : maskedValue w ≠ maskedValue v) (before after : Entries) :
    maskedValue (.map (before ++ (key, w) :: after)) ≠
      maskedValue (.map (before ++ (key, v) :: after)) := by
  simpa [maskedValue, masked_eq_map, maskedEntry, hkey] using h

/-- A value that takes the place of another one in a mapping leaves the keys of the rest text. -/
theorem IsTextKeyed.replaceValue {key v w : Value} {before after : Entries}
    (h : IsTextKeyed (.map (before ++ (key, v) :: after))) (hw : IsTextKeyed v → IsTextKeyed w) :
    IsTextKeyed (.map (before ++ (key, w) :: after)) := by
  simp only [isTextKeyed_map_iff, List.forall_mem_append, List.forall_mem_cons] at h ⊢
  obtain ⟨hbefore, ⟨hkey, hv⟩, hafter⟩ := h
  exact ⟨hbefore, ⟨hkey, hw hv⟩, hafter⟩

/-- A value with a secret in the open can be changed under a key that names one, so that it is
masked differently. -/
theorem Exposes.exists_differ {v : Value} (h : Exposes v) :
    ∃ w, v.DifferOnlyUnder IsSecretKey true w ∧ (IsTextKeyed v → IsTextKeyed w) ∧
      maskedValue w ≠ maskedValue v := by
  induction h with
  | @key entries key value hentry hsecret hopen =>
    obtain ⟨before, after, rfl⟩ := List.append_of_mem hentry
    obtain ⟨w, hmap, hw⟩ := exists_ne_of_ne_map (maskedValue value)
    rw [← maskedValue_of_ne_map hmap] at hw
    exact ⟨_, .replaceValue (fun hplain => absurd hsecret hplain) before after,
      fun htext => htext.replaceValue fun _ => isTextKeyed_of_ne_map hmap,
      maskedValue_replaceValue_ne hopen hw before after⟩
  | value hentry hopen _ ih =>
    obtain ⟨before, after, rfl⟩ := List.append_of_mem hentry
    obtain ⟨w, hdiffer, htext, hw⟩ := ih
    exact ⟨_, .replaceValue (fun _ => hdiffer) before after,
      fun h => h.replaceValue htext, maskedValue_replaceValue_ne hopen hw before after⟩
  | @item items item hmem hitem =>
    obtain ⟨w, hdiffer, hw⟩ := HoldsSecret.exists_differ (.item hmem hitem)
    cases hdiffer with
    | same => exact absurd rfl hw
    | @list _ items' hlists hlength hitems =>
      exact ⟨_, .list hlists hlength hitems, fun _ => isTextKeyed_of_ne_map nofun, hw⟩

/-! ## Redaction -/

/-- Two mappings whose keys are text are redacted in the same way exactly if they differ under
sensitive keys only, where these are reached by mappings inside mappings. -/
theorem redact_eq_redact_iff {entries entries' : Entries} (h : IsTextKeyed (.map entries))
    (h' : IsTextKeyed (.map entries')) : redact entries' = redact entries ↔
      (Value.map entries).DifferOnlyUnder IsSensitiveKey false (.map entries') := by
  rw [redact_eq_ok h, redact_eq_ok h', Except.ok.injEq, ← maskedValue_eq_iff, maskedValue,
    maskedValue, Value.map.injEq, eq_comm]

/-- A mapping without lists has no secret in the open if no key in it has a line feed. -/
theorem not_exposes_of_single_lines {v : Value} (hv : ∀ items, v ≠ .list items)
    (hlists : ∀ entry ∈ innerEntries v, ∀ items, entry.2 ≠ .list items)
    (hlines : ∀ entry ∈ innerEntries v, ∀ t, entry.1.text? = some t → '\n' ∉ t) :
    ¬Exposes v := by
  intro h
  induction h with
  | key hentry hsecret hopen =>
    obtain ⟨t, htext, hnames⟩ := hsecret
    have hline := (forall_innerEntries_map.mp hlines _ hentry).1 t htext
    exact hopen ⟨t, htext, .of_namesSecret hnames hline⟩
  | value hentry _ _ ih =>
    obtain ⟨hvalue, hinner⟩ := forall_innerEntries_map.mp hlists _ hentry
    exact ih hvalue hinner (forall_innerEntries_map.mp hlines _ hentry).2
  | item => exact hv _ rfl

/-- In mappings without lists and without line feeds in their keys, redaction lets nothing through
of what stands under the keys that name secrets. -/
theorem redact_eq_of_single_lines {entries entries' : Entries} (h : IsTextKeyed (.map entries))
    (h' : IsTextKeyed (.map entries'))
    (hlists : ∀ entry ∈ innerEntries (.map entries), ∀ items, entry.2 ≠ .list items)
    (hlines : ∀ entry ∈ innerEntries (.map entries), ∀ t, entry.1.text? = some t → '\n' ∉ t)
    (hdiffer : (Value.map entries).DifferOnlyUnder IsSecretKey true (.map entries')) :
    redact entries' = redact entries :=
  (redact_eq_redact_iff h h').mpr
    (differOnlyUnder_sensitive_of_not_exposes hdiffer
      (not_exposes_of_single_lines nofun hlists hlines))

/-- A mapping whose keys are text is redacted. The mappings with text for keys that are redacted in
the same way are those that differ from it under sensitive keys only, where these are reached by
mappings inside mappings. All those that differ from it only under keys that name a secret, wherever
these are reached by mappings and lists, are redacted in the same way exactly if it has no secret in
the open. -/
theorem redact_leaks_iff_exposes {entries : Entries} (h : IsTextKeyed (.map entries)) :
    (∃ result, redact entries = .ok result) ∧
    (∀ entries', IsTextKeyed (.map entries') → (redact entries' = redact entries ↔
      (Value.map entries).DifferOnlyUnder IsSensitiveKey false (.map entries'))) ∧
    ((∀ entries', IsTextKeyed (.map entries') →
      (Value.map entries).DifferOnlyUnder IsSecretKey true (.map entries') →
        redact entries' = redact entries) ↔ ¬Exposes (.map entries)) := by
  refine ⟨⟨_, redact_eq_ok h⟩, fun entries' h' => redact_eq_redact_iff h h', ?_, ?_⟩
  · intro hsame hexposes
    obtain ⟨w, hdiffer, htext, hw⟩ := hexposes.exists_differ
    have hmap : ∃ entries', w = .map entries' := by
      cases hdiffer with
      | same => exact ⟨entries, rfl⟩
      | @map _ entries' => exact ⟨entries', rfl⟩
    obtain ⟨entries', rfl⟩ := hmap
    have hredact := hsame entries' (htext h) hdiffer
    rw [redact_eq_redact_iff h (htext h), ← maskedValue_eq_iff] at hredact
    exact hw hredact.symm
  · intro hopen entries' h' hdiffer
    exact (redact_eq_redact_iff h h').mpr (differOnlyUnder_sensitive_of_not_exposes hdiffer hopen)

/-- A password, and a token whose key names it on its second line only. -/
theorem redact_leaks_iff_exposes_nested :
    let record (password token : ℤ) : Entries :=
      [(.text "auth".toList, .map [(.text "PassWord_2".toList, .int password),
        (.text "x\ntoken".toList, .int token)])]
    IsTextKeyed (.map (record 1 2)) ∧ redact (record 3 2) = redact (record 1 2) ∧
      Exposes (.map (record 1 2)) ∧
      ¬∀ entries', IsTextKeyed (.map entries') →
        (Value.map (record 1 2)).DifferOnlyUnder IsSecretKey true (.map entries') →
          redact entries' = redact (record 1 2) := by
  intro record
  have htext : IsTextKeyed (.map (record 1 2)) := by decide
  obtain ⟨-, hsame, hleaks⟩ := redact_leaks_iff_exposes htext
  have hpassword : (Value.map (record 1 2)).DifferOnlyUnder IsSensitiveKey false
      (.map (record 3 2)) :=
    .replaceValue (fun _ => .replaceValue (fun hopen => absurd (by decide) hopen) [] _) [] []
  have hsecret : IsSecretKey (.text "x\ntoken".toList) :=
    ⟨_, rfl, "x\n".toList, "token".toList, [], rfl, by decide⟩
  have hexposes : Exposes (.map (record 1 2)) :=
    .value List.mem_cons_self (by decide)
      (.key (List.mem_cons_of_mem _ List.mem_cons_self) hsecret (by decide))
  exact ⟨htext, (hsame _ (by decide)).mpr hpassword, hexposes, fun hall =>
    hleaks.mp hall hexposes⟩

/-- A token can be told whose key names it on its second line only, and so can a password in a
list. -/
theorem redact_ne_of_second_line_and_of_list :
    let keyed (token : ℤ) : Entries := [(.text "x\ntoken".toList, .int token)]
    let listed (password : ℤ) : Entries :=
      [(.text "users".toList, .list [.map [(.text "password".toList, .int password)]])]
    (IsTextKeyed (.map (keyed 1)) ∧ IsTextKeyed (.map (keyed 2)) ∧
      (Value.map (keyed 1)).DifferOnlyUnder IsSecretKey true (.map (keyed 2)) ∧
      redact (keyed 2) ≠ redact (keyed 1)) ∧
    (IsTextKeyed (.map (listed 1)) ∧ IsTextKeyed (.map (listed 2)) ∧
      (Value.map (listed 1)).DifferOnlyUnder IsSecretKey true (.map (listed 2)) ∧
      redact (listed 2) ≠ redact (listed 1)) := by
  intro keyed listed
  have htoken : IsSecretKey (.text "x\ntoken".toList) :=
    ⟨_, rfl, "x\n".toList, "token".toList, [], rfl, by decide⟩
  have hpassword : IsSecretKey (.text "password".toList) :=
    ⟨_, rfl, [], "password".toList, [], rfl, by decide⟩
  have hkeyed : ∀ token, redact (keyed token) = .ok (keyed token) := fun _ => by
    with_unfolding_all rfl
  have hlisted : ∀ password, redact (listed password) = .ok (listed password) := fun _ => by
    with_unfolding_all rfl
  refine ⟨⟨by decide, by decide, ?_, ?_⟩, by decide, by decide, ?_, ?_⟩
  · exact .replaceValue (fun hopen => absurd htoken hopen) [] []
  · rw [hkeyed, hkeyed]
    simp [keyed]
  · exact .replaceValue (fun _ => .replaceItem
      (.replaceValue (fun hopen => absurd hpassword hopen) [] []) [] []) [] []
  · rw [hlisted, hlisted]
    simp [listed]

end Redaction

end SqlComposer
