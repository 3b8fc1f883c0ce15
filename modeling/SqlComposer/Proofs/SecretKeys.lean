import Mathlib.Data.List.Infix
import Mathlib.Data.List.TakeWhile
import SqlComposer.Log.Redaction

/-!
# Keys that name secrets

A key names a secret when it contains a secret word in capital or small letters, wherever the word
stands. A key is sensitive when a secret word stands in its first line, letter case ignored in the
wider sense that also takes the long S for an S and the dotless I for an I. So a key that names a
secret is sensitive unless each secret word in it stands behind a line feed.
-/

namespace SqlComposer

/-! ## Words in texts -/

namespace Text

/-- A word occurs in a text if it stands between two parts of it. -/
theorem occursIn_iff {word t : Text} : word.occursIn t = true ↔ word <:+: t := by
  induction t with
  | nil => simp [occursIn]
  | cons c t ih =>
    rw [occursIn, Bool.or_eq_true, ih, List.infix_cons_iff, List.isPrefixOf_iff_prefix]

/-- A word is mentioned in a text if a part of the text is the word, letter case ignored. -/
theorem mentions_iff {word t : Text} :
    mentions word t = true ↔ ∃ front part back, t = front ++ part ++ back ∧
      part.map foldCase = word := by
  rw [mentions, occursIn_iff]
  constructor
  · rintro ⟨front', back', h⟩
    obtain ⟨start, back, rfl, hstart, -⟩ := List.map_eq_append_iff.mp h.symm
    obtain ⟨front, part, rfl, -, hpart⟩ := List.map_eq_append_iff.mp hstart
    exact ⟨front, part, back, rfl, hpart⟩
  · rintro ⟨front, part, back, rfl, rfl⟩
    exact ⟨front.map foldCase, back.map foldCase, by simp⟩

/-- A character whose small letter is ASCII counts as that letter when case is ignored. -/
theorem foldCase_of_toLower_lt {c : Char} (h : c.toLower.toNat < 128) :
    foldCase c = c.toLower := by
  have hascii : ∀ n < 128, foldCase (Char.ofNat n) = (Char.ofNat n).toLower := by decide
  have hc : c.toNat < 128 := by
    by_cases hcapital : c.val ≥ 'A'.val ∧ c.val ≤ 'Z'.val
    · exact Nat.lt_of_le_of_lt hcapital.2 (by decide)
    · have hsame : c.toLower = c := dif_neg hcapital
      rwa [hsame] at h
  simpa using hascii c.toNat hc

end Text

/-! ## Secret words -/

namespace Redaction

/-- The words that name secrets, whichever words redaction looks for. -/
def secretWords : List Text :=
  ["password".toList, "token".toList, "api_key".toList, "secret".toList]

/-- A text contains a secret word in capital or small letters. -/
def NamesSecret (t : Text) : Prop :=
  ∃ front word back, t = front ++ word ++ back ∧ word.map Char.toLower ∈ secretWords

/-- A secret word stands in the first line of a text, letter case ignored. -/
def MentionsSecret (t : Text) : Prop :=
  ∃ front word back, t = front ++ word ++ back ∧ '\n' ∉ front ∧
    word.map Text.foldCase ∈ secretWords

/-- A word that is secret when case is ignored has no line feed. -/
theorem lineFeed_not_mem_of_secret {word : Text} (h : word.map Text.foldCase ∈ secretWords) :
    '\n' ∉ word := by
  intro hmem
  have hfeed : Text.foldCase '\n' ∈ word.map Text.foldCase := List.mem_map_of_mem hmem
  have hnone : ∀ secret ∈ secretWords, Text.foldCase '\n' ∉ secret := by decide
  exact hnone _ h hfeed

/-- The texts that redaction takes for sensitive keys are those with a secret word in the first
line. -/
theorem isSensitive_iff {t : Text} : isSensitive t = true ↔ MentionsSecret t := by
  have hsplit : t.takeWhile (· != '\n') ++ t.dropWhile (· != '\n') = t :=
    List.takeWhile_append_dropWhile
  simp only [isSensitive, List.any_eq_true, Text.mentions_iff]
  constructor
  · rintro ⟨_, hsecret, front, word, back, hline, rfl⟩
    refine ⟨front, word, back ++ t.dropWhile (· != '\n'), ?_, ?_, hsecret⟩
    · rw [← List.append_assoc, ← hline, hsplit]
    · intro hfeed
      have hmem : '\n' ∈ t.takeWhile (· != '\n') := by simp [hline, hfeed]
      exact absurd (List.mem_takeWhile_imp hmem) (by decide)
  · rintro ⟨front, word, back, rfl, hfront, hsecret⟩
    have hstart : ∀ c ∈ front ++ word, (c != '\n') = true := by
      intro c hc
      rw [bne_iff_ne]
      rintro rfl
      exact (List.mem_append.mp hc).elim hfront (lineFeed_not_mem_of_secret hsecret)
    refine ⟨_, hsecret, front, word, back.takeWhile (· != '\n'), ?_, rfl⟩
    rw [List.takeWhile_append_of_pos hstart]

instance (t : Text) : Decidable (MentionsSecret t) :=
  decidable_of_iff _ isSensitive_iff

/-- A text on a single line that contains a secret word mentions it in its first line. -/
theorem MentionsSecret.of_namesSecret {t : Text} (h : NamesSecret t) (ht : '\n' ∉ t) :
    MentionsSecret t := by
  obtain ⟨front, word, back, rfl, hsecret⟩ := h
  have hletters : ∀ c ∈ word, Text.foldCase c = c.toLower := by
    intro c hc
    have hascii : ∀ secret ∈ secretWords, secret.all (·.toNat < 128) = true := by decide
    have hlower : c.toLower.toNat < 128 := by
      simpa using List.all_eq_true.mp (hascii _ hsecret) _ (List.mem_map_of_mem hc)
    exact Text.foldCase_of_toLower_lt hlower
  refine ⟨front, word, back, rfl, fun hfeed => ht (by simp [hfeed]), ?_⟩
  rwa [List.map_congr_left hletters]

/-! ## Keys -/

/-- A key is a text that names a secret. -/
def IsSecretKey (key : Value) : Prop :=
  ∃ t, key.text? = some t ∧ NamesSecret t

/-- A key is a text with a secret word in its first line. -/
def IsSensitiveKey (key : Value) : Prop :=
  ∃ t, key.text? = some t ∧ MentionsSecret t

/-- A key is text that is sensitive exactly when it is a sensitive key. -/
theorem any_isSensitive_iff {key : Value} :
    key.text?.any isSensitive = true ↔ IsSensitiveKey key := by
  cases htext : key.text? <;> simp [IsSensitiveKey, htext, isSensitive_iff]

instance (key : Value) : Decidable (IsSensitiveKey key) :=
  decidable_of_iff _ any_isSensitive_iff

/-- The search of a key that is text says whether it is sensitive. -/
theorem isSensitiveKey_eq_ok {key : Value} (h : key.text?.isSome = true) :
    isSensitiveKey key = .ok (decide (IsSensitiveKey key)) := by
  have hdecide : decide (IsSensitiveKey key) = key.text?.any isSensitive := by
    rw [Bool.eq_iff_iff, decide_eq_true_iff, any_isSensitive_iff]
  rw [hdecide]
  cases key <;> first | rfl | cases h

end Redaction

end SqlComposer
