import Mathlib
import SqlComposer.Proofs.Logged

/-!
# Values that cannot be shown

A value is shown with the numerals of the integers inside it. It cannot be shown exactly when one of
these is too long, and then for that reason, whatever else there is to show. Plainly shown, a query
is its text, which has no numerals of its own.
-/

namespace SqlComposer

/-- Whether an integer has more digits than a numeral may have. -/
def IsLong (n : ℤ) : Prop :=
  10 ^ digitLimit ≤ n.natAbs

instance (n : ℤ) : Decidable (IsLong n) :=
  inferInstanceAs (Decidable (_ ≤ _))

/-- A numeral is written exactly when it is short enough. -/
theorem writeNumeral_eq_ok_iff {n : ℤ} {t : Text} :
    writeNumeral n = .ok t ↔ n.natAbs < 10 ^ digitLimit ∧ Text.ofInt n = t := by
  unfold writeNumeral
  rw [Nat.pow_eq]
  split
  case isTrue h => simp [h]
  case isFalse h => simp [h]

/-- What is written with the numerals of some integers: it fails exactly when one of them is too
long, and then for that. -/
def Writes {α : Type} (x : Except NumeralError α) (integers : List ℤ) : Prop :=
  ∀ e, x = .error e ↔ e = .unwritable ∧ ∃ n ∈ integers, IsLong n

namespace Writes

variable {α β : Type} {x : Except NumeralError α} {integers later : List ℤ}

/-- A result is written without numerals. -/
theorem ok (a : α) : Writes (.ok a) [] := by
  simp [Writes]

/-- The numeral of an integer is written. -/
theorem numeral (n : ℤ) : Writes (writeNumeral n) [n] := by
  intro e
  unfold writeNumeral
  rw [Nat.pow_eq]
  split
  case isTrue h => simp [IsLong, h]
  case isFalse h => simp [IsLong, not_lt.mp h, eq_comm]

/-- One thing after the other is written with the numerals of both. -/
theorem bind {f : α → Except NumeralError β} (hx : Writes x integers)
    (hf : ∀ a, Writes (f a) later) : Writes (x >>= f) (integers ++ later) := by
  intro e
  have hboth : (∃ n ∈ integers ++ later, IsLong n) ↔
      (∃ n ∈ integers, IsLong n) ∨ ∃ n ∈ later, IsLong n := by
    simp only [List.mem_append, or_and_right, exists_or]
  rw [except_bind_eq_error_iff, hboth, and_or_left, ← hx e]
  cases hresult : x with
  | ok a => simpa using hf a e
  | error e' =>
    have hlong := ((hx e').mp hresult).2
    rw [← hresult]
    constructor
    · rintro (hfirst | ⟨a, hok, -⟩)
      · exact .inl hfirst
      · simp [hresult] at hok
    · rintro (hfirst | ⟨rfl, -⟩)
      · exact .inl hfirst
      · exact .inl ((hx _).mpr ⟨rfl, hlong⟩)

/-- What is made of a result needs no further numerals. -/
theorem map (hx : Writes x integers) (f : α → β) : Writes (x >>= fun a => .ok (f a)) integers := by
  simpa using hx.bind fun a => ok (f a)

/-- Without long integers there is a result. -/
theorem exists_ok (hx : Writes x integers) (h : ∀ n ∈ integers, ¬IsLong n) : ∃ a, x = .ok a := by
  cases hresult : x with
  | ok a => exact ⟨a, rfl⟩
  | error e =>
    obtain ⟨-, n, hn, hlong⟩ := (hx e).mp hresult
    exact absurd hlong (h n hn)

end Writes

namespace Value

/-! ## The integers that are shown -/

mutual

/-- The integers whose numerals a value has in its quoted form, in order. -/
def integers : Value → List ℤ
  | .int n => [n]
  | .list items | .tuple items => itemIntegers items
  | .map entries => entryIntegers entries
  | .record attributes => attributeIntegers attributes
  | .query q => entryIntegers q.parameters ++ [q.counter]
  | _ => []

/-- The integers of items. -/
def itemIntegers : List Value → List ℤ
  | [] => []
  | item :: items => integers item ++ itemIntegers items

/-- The integers of keys and their values. -/
def entryIntegers : List (Value × Value) → List ℤ
  | [] => []
  | (key, value) :: entries => integers key ++ (integers value ++ entryIntegers entries)

/-- The integers of the values of attributes. -/
def attributeIntegers : List (Text × Value) → List ℤ
  | [] => []
  | (_, value) :: attributes => integers value ++ attributeIntegers attributes

end

/-- The integers whose numerals a value has when it is shown plainly. -/
def plainIntegers : Value → List ℤ
  | .query _ => []
  | v => v.integers

mutual

/-- The quoted form of a value is written with the numerals of its integers. -/
theorem writes_quoted : ∀ v : Value, Writes v.quoted v.integers
  | .null | .bool _ | .real .. | .text _ | .raw _ | .octets _ | .decimal .. | .date _
  | .clauses _ => .ok _
  | .int n => .numeral n
  | .list items | .tuple items => (writes_quotedItems items).map _
  | .map entries => (writes_quotedEntries entries).map _
  | .record attributes => (writes_quotedAttributes attributes).map _
  | .query q => (writes_quotedEntries q.parameters).bind fun _ => (Writes.numeral q.counter).map _

/-- The quoted forms of items are written with the numerals of their integers. -/
theorem writes_quotedItems : ∀ items : List Value, Writes (quotedItems items) (itemIntegers items)
  | [] => .ok _
  | item :: items => (writes_quoted item).bind fun _ => (writes_quotedItems items).map _

/-- The quoted forms of entries are written with the numerals of their integers. -/
theorem writes_quotedEntries :
    ∀ entries : List (Value × Value), Writes (quotedEntries entries) (entryIntegers entries)
  | [] => .ok _
  | (key, value) :: entries =>
    (writes_quoted key).bind fun _ =>
      (writes_quoted value).bind fun _ => (writes_quotedEntries entries).map _

/-- The quoted forms of attributes are written with the numerals of their integers. -/
theorem writes_quotedAttributes : ∀ attributes : List (Text × Value),
    Writes (quotedAttributes attributes) (attributeIntegers attributes)
  | [] => .ok _
  | (_, value) :: attributes =>
    (writes_quoted value).bind fun _ => (writes_quotedAttributes attributes).map _

end

/-- A value is shown plainly with the numerals of its plain integers. -/
theorem writes_display : ∀ v : Value, Writes v.display v.plainIntegers
  | .text _ | .raw _ | .decimal .. | .date _ | .query _ => .ok _
  | .null | .bool _ | .int _ | .real .. | .octets _ | .list _ | .tuple _ | .map _ | .record _
  | .clauses _ => writes_quoted _

/-- The integers of items are those of each item in order. -/
theorem itemIntegers_eq (items : List Value) : itemIntegers items = items.flatMap integers := by
  induction items with
  | nil => rfl
  | cons item items ih => rw [itemIntegers, ih, List.flatMap_cons]

/-- Values are shown in brackets with the numerals of all their integers. -/
theorem writes_quotedList (items : List Value) :
    Writes (quotedList items) (items.flatMap integers) := by
  rw [← itemIntegers_eq]
  exact writes_quoted (.list items)

/-- Values are shown plainly, one after the other, with the numerals of their plain integers. -/
theorem writes_mapM_display (items : List Value) :
    Writes (items.mapM display) (items.flatMap plainIntegers) := by
  induction items with
  | nil => exact .ok _
  | cons item items ih =>
    rw [List.mapM_cons, List.flatMap_cons]
    exact (writes_display item).bind fun _ => ih.map _

end Value

end SqlComposer
