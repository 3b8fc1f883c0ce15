import Mathlib.Data.Nat.Notation
import SqlComposer.Text.Utf8

/-!
# Octets of texts

Every text is read back from its octets. The first octet of a character tells its highest bits, how
many octets follow, and within which bounds the next one lies; each further octet adds six bits.
-/

namespace SqlComposer.Utf8

/-- An octet begins a character with these highest bits and so many further octets, of which the
next one may add these bits. -/
structure Begins (pos lead bits missing next : ℕ) (p : Pending) : Prop where
  begin?_eq : begin? pos (.ofNat lead) = some p
  bits_eq : p.bits = bits
  missing_eq : p.missing = missing
  low_le : p.low ≤ 0x80 + next
  le_high : 0x80 + next ≤ p.high
  le_lead : 0x80 ≤ lead
  lead_lt : lead < 256

variable (pos : ℕ) {n : ℕ}

/-- A character of two octets. -/
theorem exists_begins_two (hlow : 0x80 ≤ n) (hhigh : n < 0x800) :
    ∃ p, Begins pos (0xC0 + n / 64) (n / 64) 1 (n % 64) p := by
  have hlead : (UInt8.ofNat (0xC0 + n / 64)).toNat = 0xC0 + n / 64 :=
    UInt8.toNat_ofNat_of_lt' (by omega : _ < 256)
  have hbegin : begin? pos (.ofNat (0xC0 + n / 64)) =
      some ⟨pos, .ofNat (0xC0 + n / 64), n / 64, 1, 0x80, 0xBF⟩ := by
    rw [begin?, hlead, if_pos (by omega), Nat.add_sub_cancel_left]
  exact ⟨_, hbegin, rfl, rfl, Nat.le_add_right .., by dsimp only; omega, by omega, by omega⟩

/-- A character of three octets. The bounds of the second one leave out what two octets can say, and
the surrogates. -/
theorem exists_begins_three (hlow : 0x800 ≤ n) (hhigh : n < 0x10000)
    (hchar : n < 0xD800 ∨ 0xDFFF < n) :
    ∃ p, Begins pos (0xE0 + n / 4096) (n / 4096) 2 (n / 64 % 64) p := by
  have hlead : (UInt8.ofNat (0xE0 + n / 4096)).toNat = 0xE0 + n / 4096 :=
    UInt8.toNat_ofNat_of_lt' (by omega : _ < 256)
  by_cases hfirst : n / 4096 = 0
  · have hbegin : begin? pos (.ofNat (0xE0 + n / 4096)) =
        some ⟨pos, .ofNat (0xE0 + n / 4096), 0, 2, 0xA0, 0xBF⟩ := by
      rw [begin?, hlead, if_neg (by omega), if_pos (by omega)]
    exact ⟨_, hbegin, hfirst.symm, rfl, by dsimp only; omega, by dsimp only; omega, by omega,
      by omega⟩
  by_cases hsurrogate : n / 4096 = 0xD
  · have hbegin : begin? pos (.ofNat (0xE0 + n / 4096)) =
        some ⟨pos, .ofNat (0xE0 + n / 4096), 0xD, 2, 0x80, 0x9F⟩ := by
      rw [begin?, hlead, if_neg (by omega), if_neg (by omega), if_pos (by omega)]
    exact ⟨_, hbegin, hsurrogate.symm, rfl, Nat.le_add_right .., by dsimp only; omega, by omega,
      by omega⟩
  · have hbegin : begin? pos (.ofNat (0xE0 + n / 4096)) =
        some ⟨pos, .ofNat (0xE0 + n / 4096), n / 4096, 2, 0x80, 0xBF⟩ := by
      rw [begin?, hlead, if_neg (by omega), if_neg (by omega), if_neg (by omega),
        if_pos (by omega), Nat.add_sub_cancel_left]
    exact ⟨_, hbegin, rfl, rfl, Nat.le_add_right .., by dsimp only; omega, by omega, by omega⟩

/-- A character of four octets. The bounds of the second one leave out what three octets can say,
and what lies behind the last character. -/
theorem exists_begins_four (hlow : 0x10000 ≤ n) (hhigh : n < 0x110000) :
    ∃ p, Begins pos (0xF0 + n / 262144) (n / 262144) 3 (n / 4096 % 64) p := by
  have hlead : (UInt8.ofNat (0xF0 + n / 262144)).toNat = 0xF0 + n / 262144 :=
    UInt8.toNat_ofNat_of_lt' (by omega : _ < 256)
  by_cases hfirst : n / 262144 = 0
  · have hbegin : begin? pos (.ofNat (0xF0 + n / 262144)) =
        some ⟨pos, .ofNat (0xF0 + n / 262144), 0, 3, 0x90, 0xBF⟩ := by
      rw [begin?, hlead, if_neg (by omega), if_neg (by omega), if_neg (by omega),
        if_neg (by omega), if_pos (by omega)]
    exact ⟨_, hbegin, hfirst.symm, rfl, by dsimp only; omega, by dsimp only; omega, by omega,
      by omega⟩
  by_cases hlast : n / 262144 = 4
  · have hbegin : begin? pos (.ofNat (0xF0 + n / 262144)) =
        some ⟨pos, .ofNat (0xF0 + n / 262144), 4, 3, 0x80, 0x8F⟩ := by
      rw [begin?, hlead, if_neg (by omega), if_neg (by omega), if_neg (by omega),
        if_neg (by omega), if_neg (by omega), if_neg (by omega), if_pos (by omega)]
    exact ⟨_, hbegin, hlast.symm, rfl, Nat.le_add_right .., by dsimp only; omega, by omega,
      by omega⟩
  · have hbegin : begin? pos (.ofNat (0xF0 + n / 262144)) =
        some ⟨pos, .ofNat (0xF0 + n / 262144), n / 262144, 3, 0x80, 0xBF⟩ := by
      rw [begin?, hlead, if_neg (by omega), if_neg (by omega), if_neg (by omega),
        if_neg (by omega), if_neg (by omega), if_pos (by omega), Nat.add_sub_cancel_left]
    exact ⟨_, hbegin, rfl, rfl, Nat.le_add_right .., by dsimp only; omega, by omega, by omega⟩

/-- A first octet is read. -/
theorem Begins.read_eq {pos lead bits missing next : ℕ} {p : Pending}
    (h : Begins pos lead bits missing next p) (rest : List UInt8) :
    read pos none (.ofNat lead :: rest) = read (pos + 1) (some p) rest := by
  have hlead : ¬(UInt8.ofNat lead).toNat < 0x80 := by
    rw [UInt8.toNat_ofNat_of_lt' h.lead_lt]
    exact Nat.not_lt_of_le h.le_lead
  rw [read, if_neg hlead, h.begin?_eq]

/-- A further octet adds six bits. -/
theorem read_further {p : Pending} {next : ℕ} (hmissing : 1 < p.missing) (hnext : next < 64)
    (hlow : p.low ≤ 0x80 + next) (hhigh : 0x80 + next ≤ p.high) (rest : List UInt8) :
    read pos (some p) (.ofNat (0x80 + next) :: rest) =
      read (pos + 1) (some ⟨p.first, p.lead, 64 * p.bits + next, p.missing - 1, 0x80, 0xBF⟩)
        rest := by
  have hoctet : (UInt8.ofNat (0x80 + next)).toNat = 0x80 + next :=
    UInt8.toNat_ofNat_of_lt' (by omega : _ < 256)
  rw [read, hoctet, if_neg (by omega), if_neg (by omega), Nat.add_sub_cancel_left]

/-- The last octet adds six bits, and the character is read. -/
theorem read_last {p : Pending} {next : ℕ} {c : Char} (hmissing : p.missing = 1)
    (hnext : next < 64) (hlow : p.low ≤ 0x80 + next) (hhigh : 0x80 + next ≤ p.high)
    (hchar : 64 * p.bits + next = c.toNat) (rest : List UInt8) :
    read pos (some p) (.ofNat (0x80 + next) :: rest) = (c :: ·) <$> read (pos + 1) none rest := by
  have hoctet : (UInt8.ofNat (0x80 + next)).toNat = 0x80 + next :=
    UInt8.toNat_ofNat_of_lt' (by omega : _ < 256)
  rw [read, hoctet, if_neg (by omega), if_pos (by omega), Nat.add_sub_cancel_left, hchar,
    Char.ofNat_toNat]

/-- The octets of a character are read as the character, whatever follows. -/
theorem read_encodeChar_append (c : Char) (rest : List UInt8) :
    ∃ later, read pos none (encodeChar c ++ rest) = (c :: ·) <$> read later none rest := by
  have hchar : c.toNat < 0xD800 ∨ 0xDFFF < c.toNat ∧ c.toNat < 0x110000 := c.valid
  by_cases hone : c.toNat < 0x80
  · have hoctet : (UInt8.ofNat c.toNat).toNat = c.toNat :=
      UInt8.toNat_ofNat_of_lt' (by omega : _ < 256)
    refine ⟨pos + 1, ?_⟩
    rw [encodeChar, if_pos hone, List.singleton_append, read, hoctet, if_pos hone,
      Char.ofNat_toNat]
  by_cases htwo : c.toNat < 0x800
  · obtain ⟨p, hp⟩ := exists_begins_two pos (Nat.le_of_not_lt hone) htwo
    have hbits := hp.bits_eq
    refine ⟨pos + 1 + 1, ?_⟩
    rw [encodeChar, if_neg hone, if_pos htwo, List.cons_append, hp.read_eq, List.singleton_append,
      read_last (c := c) _ hp.missing_eq (by omega) hp.low_le hp.le_high (by omega)]
  by_cases hthree : c.toNat < 0x10000
  · obtain ⟨p, hp⟩ := exists_begins_three pos (Nat.le_of_not_lt htwo) hthree (by omega)
    have hbits := hp.bits_eq
    have hmissing := hp.missing_eq
    refine ⟨pos + 1 + 1 + 1, ?_⟩
    rw [encodeChar, if_neg hone, if_neg htwo, if_pos hthree, List.cons_append, hp.read_eq,
      List.cons_append, read_further _ (by omega) (by omega) hp.low_le hp.le_high,
      List.singleton_append, read_last (c := c) _ (by dsimp only; omega) (by omega)
        (Nat.le_add_right ..) (by dsimp only; omega) (by dsimp only; omega)]
  · obtain ⟨p, hp⟩ := exists_begins_four pos (Nat.le_of_not_lt hthree) (by omega)
    have hbits := hp.bits_eq
    have hmissing := hp.missing_eq
    refine ⟨pos + 1 + 1 + 1 + 1, ?_⟩
    rw [encodeChar, if_neg hone, if_neg htwo, if_neg hthree, List.cons_append, hp.read_eq,
      List.cons_append, read_further _ (by omega) (by omega) hp.low_le hp.le_high,
      List.cons_append, read_further _ (by dsimp only; omega) (by omega) (Nat.le_add_right ..)
        (by dsimp only; omega),
      List.singleton_append, read_last (c := c) _ (by dsimp only; omega) (by omega)
        (Nat.le_add_right ..) (by dsimp only; omega) (by dsimp only; omega)]

/-- Every text is read back from its octets. -/
theorem decode_encode (t : Text) : decode (encode t) = .ok t := by
  have hread : ∀ pos, read pos none (encode t) = .ok t := by
    induction t with
    | nil => exact fun _ => rfl
    | cons c t ih =>
      intro pos
      obtain ⟨later, hlater⟩ := read_encodeChar_append pos c (encode t)
      rw [encode, List.flatMap_cons, ← encode, hlater, ih]
      rfl
  exact hread 0

end SqlComposer.Utf8
