import SqlComposer.Logged

/-!
# Sequences of computations that report events

What a sequence of two computations reports and ends with, said of the two. Two computations agree
when they report the same events and end in the same way; a sequence agrees with another one when
its parts do, which carries relations between two runs from step to step.
-/

namespace SqlComposer

/-! ## Outcomes -/

section Outcomes

variable {ε ε' α β : Type}

/-- What is made of a result is a result exactly when there is one to make it of. -/
@[simp] theorem except_map_eq_ok_iff {x : Except ε α} {f : α → β} {b : β} :
    f <$> x = .ok b ↔ ∃ a, x = .ok a ∧ f a = b := by
  cases x <;> simp [Functor.map, Except.map]

/-- What is made of a result fails exactly as the result does. -/
@[simp] theorem except_map_eq_error_iff {x : Except ε α} {f : α → β} {e : ε} :
    f <$> x = .error e ↔ x = .error e := by
  cases x <;> simp [Functor.map, Except.map]

/-- Another failure does not change what succeeds. -/
@[simp] theorem except_mapError_eq_ok_iff {x : Except ε α} {f : ε → ε'} {a : α} :
    x.mapError f = .ok a ↔ x = .ok a := by
  cases x with
  | ok b =>
    have hmap : (Except.ok b : Except ε α).mapError f = .ok b := rfl
    simp [hmap]
  | error e => exact ⟨nofun, nofun⟩

/-- A failure is turned into another one exactly where there is one. -/
@[simp] theorem except_mapError_eq_error_iff {x : Except ε α} {f : ε → ε'} {e' : ε'} :
    x.mapError f = .error e' ↔ ∃ e, x = .error e ∧ f e = e' := by
  cases x with
  | ok b =>
    constructor
    · nofun
    · rintro ⟨_, ⟨⟩, -⟩
  | error e =>
    have hmap : (Except.error e : Except ε α).mapError f = .error (f e) := rfl
    simp [hmap]

/-- A sequence succeeds exactly when its first part does and then its second one. -/
theorem except_bind_eq_ok_iff {x : Except ε α} {f : α → Except ε β} {b : β} :
    x >>= f = .ok b ↔ ∃ a, x = .ok a ∧ f a = .ok b := by
  cases x <;> simp [bind, Except.bind]

/-- A sequence fails exactly when its first part does, or else its second one. -/
@[simp] theorem except_bind_eq_error_iff {x : Except ε α} {f : α → Except ε β} {e : ε} :
    x >>= f = .error e ↔ x = .error e ∨ ∃ a, x = .ok a ∧ f a = .error e := by
  cases x <;> simp [bind, Except.bind]

end Outcomes

namespace Logged

/-! ## Sequences -/

variable {α β γ δ : Type}

/-- A pure computation ends with its result. -/
@[simp] theorem outcome_pure (a : α) : (pure a : Logged α).outcome = .ok a := rfl

/-- A result without events ends with itself. -/
@[simp] theorem outcome_result (a : α) : (result a).outcome = .ok a := rfl

/-- A report succeeds. -/
@[simp] theorem outcome_report (events : List Event) : (report events).outcome = .ok () := rfl

/-- A computation without events ends as its outcome says. -/
@[simp] theorem outcome_ofExcept (x : Except Failure α) : (ofExcept x).outcome = x := rfl

/-- A sequence ends as its second part does, if the first one succeeds. -/
theorem outcome_bind (x : Logged α) (f : α → Logged β) :
    (x >>= f).outcome = x.outcome >>= fun a => (f a).outcome := by
  change (x.andThen f).outcome = _
  unfold andThen
  cases x.outcome <;> rfl

/-- A sequence succeeds exactly when its first part does and then its second one. -/
@[simp] theorem outcome_bind_eq_ok {x : Logged α} {f : α → Logged β} {b : β} :
    (x >>= f).outcome = .ok b ↔ ∃ a, x.outcome = .ok a ∧ (f a).outcome = .ok b := by
  change (x.andThen f).outcome = .ok b ↔ _
  unfold andThen
  cases x.outcome <;> simp

/-- A sequence fails exactly when its first part does, or else its second one. -/
@[simp] theorem outcome_bind_eq_error {x : Logged α} {f : α → Logged β} {e : Failure} :
    (x >>= f).outcome = .error e ↔
      x.outcome = .error e ∨ ∃ a, x.outcome = .ok a ∧ (f a).outcome = .error e := by
  change (x.andThen f).outcome = .error e ↔ _
  unfold andThen
  cases x.outcome <;> simp

/-! ## Agreement -/

/-- Two outcomes agree when they are the same failure, or results in a relation. -/
def OutcomesAgree (r : α → β → Prop) : Except Failure α → Except Failure β → Prop
  | .ok a, .ok b => r a b
  | .error e, .error e' => e = e'
  | _, _ => False

/-- Two computations agree when they report the same events and their outcomes agree. -/
structure Agree (r : α → β → Prop) (x : Logged α) (y : Logged β) : Prop where
  /-- Both report the same events in the same order. -/
  events_eq : x.events = y.events
  /-- Both fail in the same way, or both succeed with results in the relation. -/
  outcomes : OutcomesAgree r x.outcome y.outcome

/-- Results in a relation agree. -/
theorem Agree.pure {r : α → β → Prop} {a : α} {b : β} (h : r a b) :
    Agree r (pure a) (pure b) :=
  ⟨rfl, h⟩

/-- The same failure agrees with itself whatever the results are compared by. -/
theorem Agree.error (r : α → β → Prop) (e : Failure) :
    Agree r (ofExcept (.error e)) (ofExcept (.error e)) :=
  ⟨rfl, rfl⟩

/-- A computation agrees with itself. -/
theorem Agree.refl (x : Logged α) : Agree Eq x x := by
  refine ⟨rfl, ?_⟩
  cases x.outcome <;> exact rfl

/-- Computations that agree do so in any weaker relation of their results. -/
theorem Agree.imp {r s : α → β → Prop} {x : Logged α} {y : Logged β} (h : Agree r x y)
    (hrs : ∀ a b, r a b → s a b) : Agree s x y := by
  obtain ⟨hevents, houtcomes⟩ := h
  refine ⟨hevents, ?_⟩
  cases hx : x.outcome <;> cases hy : y.outcome <;> rw [hx, hy] at houtcomes
  · exact houtcomes
  · exact houtcomes
  · exact houtcomes
  · exact hrs _ _ houtcomes

/-- Sequences agree when their first parts do and related results lead to second parts that do. -/
theorem Agree.bind {r : α → β → Prop} {s : γ → δ → Prop} {x : Logged α} {y : Logged β}
    {f : α → Logged γ} {g : β → Logged δ} (hxy : Agree r x y)
    (hfg : ∀ a b, r a b → Agree s (f a) (g b)) : Agree s (x >>= f) (y >>= g) := by
  obtain ⟨events, outcome⟩ := x
  obtain ⟨events', outcome'⟩ := y
  obtain ⟨rfl, houtcomes⟩ := hxy
  cases outcome with
  | error e =>
    cases outcome' with
    | error e' => exact ⟨rfl, houtcomes⟩
    | ok b => exact houtcomes.elim
  | ok a =>
    cases outcome' with
    | error e' => exact houtcomes.elim
    | ok b =>
      have hab := hfg a b houtcomes
      exact ⟨congrArg (events ++ ·) hab.events_eq, hab.outcomes⟩

end Logged

end SqlComposer
