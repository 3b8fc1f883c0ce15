import Mathlib
import SqlComposer.Template.Lookup
import SqlComposer.Value.Equality

/-!
# Numbered parameters

The parameters of a query are numbered when their keys are the numbers from one up to the counter,
each of them once, whatever kinds of values stand for the numbers. Putting a value under the next
number keeps parameters numbered, and their values in the order of the numbers grow at the end.
-/

namespace SqlComposer

namespace Value

/-- A value is an integer exactly when the integer is the number behind it. -/
theorem isNumber_iff {n : ℤ} {v : Value} :
    v.isNumber n = true ↔ v.magnitude? = some (.finite n) := by
  cases v with
  | bool b => cases b <;> simp [isNumber, magnitude?] <;> norm_cast
  | _ => simp [isNumber, magnitude?]

/-- A value is no more than one integer. -/
theorem eq_of_isNumber {m n : ℤ} {v : Value} (hm : v.isNumber m = true)
    (hn : v.isNumber n = true) : m = n := by
  rw [isNumber_iff] at hm hn
  rw [hm] at hn
  simpa using hn

/-- Values that are the same integer are equal. -/
theorem same_of_isNumber {n : ℤ} {v w : Value} (hv : v.isNumber n = true)
    (hw : w.isNumber n = true) : v.same w = true := by
  rw [isNumber_iff] at hv hw
  have hsame : v.sameNumber w = true := by simp [sameNumber, hv, hw, Magnitude.same]
  cases v <;> cases w <;> simp_all [magnitude?, same]

end Value

namespace Entries

/-- A mapping holds no key twice: none of its keys equals an earlier one. -/
def IsMapping (entries : Entries) : Prop :=
  entries.keys.Pairwise fun a b => a.same b = false

/-- The keys are the numbers from one up to a counter, each of them once. -/
structure NumberedTo (entries : Entries) (counter : ℤ) : Prop where
  /-- The counter is no negative number. -/
  nonneg : 0 ≤ counter
  /-- Up to their order, the numbers behind the keys are those up to the counter. -/
  keys_perm : (entries.keys.map Value.magnitude?).Perm
    ((numbersUpTo counter).map fun n : ℤ => some (.finite n))

/-! ## Looking up and putting -/

/-- What is found after a value has been put under a number. -/
theorem atNumber?_put (entries : Entries) (n m : ℤ) (value : Value) :
    atNumber? m (put n value entries) = if m = n then some value else atNumber? m entries := by
  induction entries with
  | nil =>
    by_cases h : m = n
    · simp [put, atNumber?, Value.isNumber, h]
    · simp [put, atNumber?, Value.isNumber, h, Ne.symm h]
  | cons entry entries ih =>
    obtain ⟨key, old⟩ := entry
    simp only [atNumber?] at ih ⊢
    by_cases hkey : key.isNumber n = true
    · by_cases h : m = n
      · simp [put, h, hkey]
      · have hother : key.isNumber m = false := by
          by_contra hm
          exact h (Value.eq_of_isNumber (by simpa using hm) hkey)
        simp [put, h, hkey, hother]
    · by_cases hm : key.isNumber m = true
      · have h : m ≠ n := fun h => hkey (h ▸ hm)
        simp [put, h, hkey, hm]
      · simpa [put, hkey, hm] using ih

/-- The keys after a value has been put under a number that was none of them. -/
theorem keys_put {entries : Entries} {n : ℤ} (value : Value)
    (hnew : ∀ key ∈ entries.keys, key.isNumber n = false) :
    (put n value entries).keys = entries.keys ++ [.int n] := by
  induction entries with
  | nil => rfl
  | cons entry entries ih =>
    obtain ⟨key, old⟩ := entry
    simp only [keys, List.map_cons, List.forall_mem_cons] at hnew ih ⊢
    simp [put, hnew.1, ih hnew.2]

/-- The numbers up to a counter in order. -/
theorem numbersUpTo_succ {counter : ℤ} (h : 0 ≤ counter) :
    numbersUpTo (counter + 1) = numbersUpTo counter ++ [counter + 1] := by
  obtain ⟨n, rfl⟩ := Int.eq_ofNat_of_zero_le h
  have hsucc : ((n : ℤ) + 1).toNat = n + 1 := by omega
  simp [numbersUpTo, hsucc, List.range_succ]

/-- The numbers up to a later counter go on with those that follow the counter. -/
theorem numbersUpTo_add {counter : ℤ} (h : 0 ≤ counter) (count : ℕ) :
    numbersUpTo (counter + count) =
      numbersUpTo counter ++ (List.range count).map fun i : ℕ => counter + 1 + i := by
  induction count with
  | zero => simp
  | succ count ih =>
    have hsucc : counter + (count + 1 : ℕ) = counter + count + 1 := by push_cast; ring
    have hlast : counter + (count : ℤ) + 1 = counter + 1 + count := by ring
    rw [hsucc, numbersUpTo_succ (by omega), ih, List.range_succ, List.map_append,
      List.append_assoc, hlast]
    rfl

/-- The numbers up to a counter are those from one on that are no larger. -/
theorem mem_numbersUpTo {counter n : ℤ} : n ∈ numbersUpTo counter ↔ 1 ≤ n ∧ n ≤ counter := by
  simp only [numbersUpTo, List.mem_map, List.mem_range]
  constructor
  · rintro ⟨i, hi, rfl⟩
    omega
  · intro h
    exact ⟨(n - 1).toNat, by omega, by omega⟩

/-- The numbers up to a counter are all different. -/
theorem nodup_numbersUpTo (counter : ℤ) : (numbersUpTo counter).Nodup := by
  refine List.Nodup.map (fun i j h => ?_) List.nodup_range
  simpa using h

/-- The values of consecutive numbers are what is found under each of them. -/
theorem valuesFrom_eq_ok_iff {entries : Entries} {number : ℤ} {count : ℕ} {values : List Value} :
    entries.valuesFrom number count = .ok values ↔
      values.map some = (List.range count).map fun i : ℕ => entries.atNumber? (number + i) := by
  induction count generalizing number values with
  | zero => cases values <;> simp [valuesFrom]
  | succ count ih =>
    have hshift : (List.range count).map (fun i : ℕ => entries.atNumber? (number + 1 + i)) =
        (List.range count).map fun i : ℕ => entries.atNumber? (number + (i + 1 : ℕ)) := by
      refine List.map_congr_left fun i _ => ?_
      congr 1
      push_cast
      ring
    rw [List.range_succ_eq_map, List.map_cons, List.map_map, Function.comp_def, ← hshift]
    simp only [valuesFrom, Nat.cast_zero, add_zero]
    cases hfound : entries.atNumber? number with
    | none => cases values <;> simp
    | some value =>
      cases values with
      | nil =>
        cases hrest : entries.valuesFrom (number + 1) count <;> simp [Functor.map, Except.map]
      | cons first rest =>
        rw [List.map_cons, List.cons.injEq, ← ih]
        cases hrest : entries.valuesFrom (number + 1) count <;>
          simp [Functor.map, Except.map, eq_comm]

/-- The values of numbered parameters after one has been put under the next number. -/
theorem values_put {entries : Entries} {counter : ℤ} {values : List Value} (value : Value)
    (hcounter : 0 ≤ counter) (hvalues : entries.values counter = .ok values) :
    (entries.put (counter + 1) value).values (counter + 1) = .ok (values ++ [value]) := by
  obtain ⟨n, rfl⟩ := Int.eq_ofNat_of_zero_le hcounter
  have hsucc : ((n : ℤ) + 1).toNat = n + 1 := by omega
  simp only [Entries.values, valuesFrom_eq_ok_iff, Int.toNat_natCast] at hvalues ⊢
  rw [hsucc, List.range_succ, List.map_append, List.map_append, hvalues]
  congr 1
  · refine List.map_congr_left fun i hi => ?_
    have hne : (1 + (i : ℤ)) ≠ n + 1 := by
      have := List.mem_range.mp hi
      omega
    rw [atNumber?_put, if_neg hne]
  · have heq : (1 + (n : ℤ)) = n + 1 := by omega
    simp [atNumber?_put, heq]

/-! ## Numbered parameters -/

/-- Without parameters nothing is numbered. -/
theorem NumberedTo.nil : NumberedTo [] 0 :=
  ⟨le_rfl, by simp [numbersUpTo, keys]⟩

/-- A number is a key exactly when it is one of those up to the counter. -/
theorem NumberedTo.exists_key_iff {entries : Entries} {counter n : ℤ}
    (h : entries.NumberedTo counter) :
    (∃ key ∈ entries.keys, key.isNumber n = true) ↔ 1 ≤ n ∧ n ≤ counter := by
  have hmem := h.keys_perm.mem_iff (a := some (.finite n))
  simp only [List.mem_map, mem_numbersUpTo, Option.some.injEq, Magnitude.finite.injEq,
    Rat.intCast_inj, exists_eq_right] at hmem
  simpa only [Value.isNumber_iff] using hmem

/-- Every key of numbered parameters is a number up to the counter. -/
theorem NumberedTo.exists_number {entries : Entries} {counter : ℤ} {key : Value}
    (h : entries.NumberedTo counter) (hkey : key ∈ entries.keys) :
    ∃ n, 1 ≤ n ∧ n ≤ counter ∧ key.isNumber n = true := by
  have hmem := h.keys_perm.mem_iff.mp (List.mem_map_of_mem hkey)
  obtain ⟨n, hn, heq⟩ := List.mem_map.mp hmem
  exact ⟨n, (mem_numbersUpTo.mp hn).1, (mem_numbersUpTo.mp hn).2, Value.isNumber_iff.mpr heq.symm⟩

/-- There are as many parameters as the counter says. -/
theorem NumberedTo.length_eq {entries : Entries} {counter : ℤ} (h : entries.NumberedTo counter) :
    entries.length = counter.toNat := by
  simpa [keys, numbersUpTo] using h.keys_perm.length_eq

/-- A value under the next number keeps parameters numbered. -/
theorem NumberedTo.put {entries : Entries} {counter : ℤ} (h : entries.NumberedTo counter)
    (value : Value) : (entries.put (counter + 1) value).NumberedTo (counter + 1) := by
  refine ⟨by have := h.nonneg; omega, ?_⟩
  have hnew : ∀ key ∈ entries.keys, key.isNumber (counter + 1) = false := by
    intro key hkey
    by_contra hnumber
    have := (h.exists_key_iff (n := counter + 1)).mp ⟨key, hkey, by simpa using hnumber⟩
    omega
  rw [keys_put value hnew, numbersUpTo_succ h.nonneg, List.map_append, List.map_append]
  exact h.keys_perm.append (by simp [Value.magnitude?])

/-- Numbered parameters pass the check of a query. -/
theorem NumberedTo.isDense {entries : Entries} {counter : ℤ} (h : entries.NumberedTo counter) :
    entries.isDense counter = true := by
  simp only [Entries.isDense, Bool.and_eq_true, decide_eq_true_eq, List.all_eq_true,
    List.any_eq_true]
  refine ⟨⟨h.length_eq.ge, fun key hkey => ?_⟩, fun n hn => ?_⟩
  · obtain ⟨n, hlow, hhigh, hnumber⟩ := h.exists_number hkey
    unfold isNumberUpTo
    split
    · simp only [Value.isNumber, beq_iff_eq] at hnumber
      simp [hnumber, hlow, hhigh]
    · exact List.any_eq_true.mpr ⟨n, mem_numbersUpTo.mpr ⟨hlow, hhigh⟩, hnumber⟩
  · exact h.exists_key_iff.mpr (mem_numbersUpTo.mp hn)

/-- A mapping that passes the check of a query is numbered. -/
theorem NumberedTo.of_isDense {entries : Entries} {counter : ℤ} (hmapping : entries.IsMapping)
    (hcounter : 0 ≤ counter) (hdense : entries.isDense counter = true) :
    entries.NumberedTo counter := by
  simp only [Entries.isDense, Bool.and_eq_true, decide_eq_true_eq, List.all_eq_true,
    List.any_eq_true] at hdense
  obtain ⟨⟨-, hkeys⟩, hnumbers⟩ := hdense
  have hnumber : ∀ key ∈ entries.keys, ∃ n ∈ numbersUpTo counter, key.isNumber n = true := by
    intro key hkey
    have hup := hkeys key hkey
    unfold isNumberUpTo at hup
    split at hup
    · exact ⟨_, mem_numbersUpTo.mpr (by simpa using hup), by simp [Value.isNumber]⟩
    · exact List.any_eq_true.mp hup
  refine ⟨hcounter, (List.perm_ext_iff_of_nodup ?_ ?_).mpr fun m => ?_⟩
  · -- equal numbers are equal keys, of which a mapping holds no two
    refine List.pairwise_map.mpr (List.Pairwise.imp_of_mem ?_ hmapping)
    intro a b ha _ hdiffer heq
    obtain ⟨n, -, hn⟩ := hnumber a ha
    have hb : b.isNumber n = true := by rw [Value.isNumber_iff] at hn ⊢; rw [← heq, hn]
    rw [Value.same_of_isNumber hn hb] at hdiffer
    cases hdiffer
  · refine List.Nodup.map (fun m n h => ?_) (nodup_numbersUpTo counter)
    simpa using h
  · simp only [List.mem_map]
    constructor
    · rintro ⟨key, hkey, rfl⟩
      obtain ⟨n, hn, heq⟩ := hnumber key hkey
      exact ⟨n, hn, (Value.isNumber_iff.mp heq).symm⟩
    · rintro ⟨n, hn, rfl⟩
      obtain ⟨key, hkey, heq⟩ := hnumbers n hn
      exact ⟨key, hkey, Value.isNumber_iff.mp heq⟩

/-- Numbered parameters have a value for every number. -/
theorem NumberedTo.exists_values {entries : Entries} {counter : ℤ}
    (h : entries.NumberedTo counter) :
    ∃ values, entries.values counter = .ok values ∧ (values.length : ℤ) = counter := by
  have hfound : ∀ n ∈ numbersUpTo counter, (entries.atNumber? n).isSome = true := by
    intro n hn
    obtain ⟨key, hkey, hnumber⟩ := h.exists_key_iff.mpr (mem_numbersUpTo.mp hn)
    obtain ⟨entry, hentry, rfl⟩ := List.mem_map.mp hkey
    simp only [atNumber?, Option.isSome_map, List.find?_isSome]
    exact ⟨entry, hentry, hnumber⟩
  refine ⟨(numbersUpTo counter).map fun n => (entries.atNumber? n).getD .null, ?_, ?_⟩
  · rw [Entries.values, valuesFrom_eq_ok_iff, List.map_map, numbersUpTo, List.map_map]
    refine List.map_congr_left fun i hi => ?_
    have hsome := hfound ((i : ℤ) + 1) (List.mem_map.mpr ⟨i, hi, rfl⟩)
    obtain ⟨value, hvalue⟩ := Option.isSome_iff_exists.mp hsome
    have hcomm : 1 + (i : ℤ) = i + 1 := by ring
    simp [hvalue, hcomm]
  · have := h.nonneg
    simp [numbersUpTo]
    omega

/-- Values put one after the other under the numbers that follow a counter. -/
def putAll (entries : Entries) (counter : ℤ) : List Value → Entries
  | [] => entries
  | value :: values => putAll (entries.put (counter + 1) value) (counter + 1) values

/-- Values under the numbers that follow keep parameters numbered. -/
theorem NumberedTo.putAll {entries : Entries} {counter : ℤ} (h : entries.NumberedTo counter)
    (values : List Value) :
    (entries.putAll counter values).NumberedTo (counter + values.length) := by
  induction values generalizing entries counter with
  | nil => simpa [Entries.putAll] using h
  | cons value values ih =>
    have := ih (h.put value)
    rw [List.length_cons, Nat.cast_succ, ← add_assoc, add_right_comm]
    exact this

/-- Values put under the numbers that follow come after the earlier ones, in the same order. -/
theorem values_putAll {entries : Entries} {counter : ℤ} {earlier : List Value}
    (hcounter : 0 ≤ counter) (hvalues : entries.values counter = .ok earlier)
    (values : List Value) :
    (entries.putAll counter values).values (counter + values.length) =
      .ok (earlier ++ values) := by
  induction values generalizing entries counter earlier with
  | nil => simpa [Entries.putAll] using hvalues
  | cons value values ih =>
    have := ih (by omega) (values_put value hcounter hvalues)
    rw [List.append_assoc, List.singleton_append] at this
    rw [List.length_cons, Nat.cast_succ, ← add_assoc, add_right_comm]
    exact this

end Entries

end SqlComposer
