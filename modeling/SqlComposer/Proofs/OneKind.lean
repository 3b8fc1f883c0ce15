import SqlComposer.Proofs.Rearranging

/-!
# Sorting values of one kind

Values that can be compared are of one kind, whatever the kinds are. A run holds values of one kind,
since each of them has been compared with one before it, and two runs are merged only after a value
of one has been compared with a value of the other. So a sort succeeds only on values of one kind:
it never overlooks that two of them have no order for being of different kinds.
-/

namespace SqlComposer.Sorting

variable {ε α κ : Type}

/-- Values that can be compared are of one kind. -/
def RespectsKind (before : Comparison ε α) (kind : α → κ) : Prop :=
  ∀ x y answer, before x y = .ok answer → kind x = kind y

/-- All values of a list are of one kind. -/
def Alike (kind : α → κ) (xs : List α) : Prop :=
  ∀ x ∈ xs, ∀ y ∈ xs, kind x = kind y

variable {before : Comparison ε α} {kind : α → κ} {xs ys : List α} {x y : α}

/-- No values are of one kind. -/
theorem Alike.nil : Alike kind ([] : List α) :=
  nofun

/-- Some of the values of one kind are of one kind. -/
theorem Alike.subset (h : Alike kind ys) (hsub : xs ⊆ ys) : Alike kind xs :=
  fun x hx y hy => h x (hsub hx) y (hsub hy)

/-- Lists of one kind each are of one kind together when a value of one is of the kind of a value of
the other. -/
theorem Alike.append (hxs : Alike kind xs) (hys : Alike kind ys) (hx : x ∈ xs) (hy : y ∈ ys)
    (h : kind x = kind y) : Alike kind (xs ++ ys) := by
  have hall : ∀ z ∈ xs ++ ys, kind z = kind x := by
    intro z hz
    rcases List.mem_append.mp hz with hz | hz
    · exact hxs z hz x hx
    · exact (hys z hz y hy).trans h.symm
  exact fun a ha b hb => (hall a ha).trans (hall b hb).symm

/-- The first value is tested. -/
theorem exists_test_of_countBefore {d : Direction} {test : α → Except ε Bool} {n : ℕ}
    (h : countBefore d test (x :: xs) = .ok n) : ∃ answer, test x = .ok answer :=
  let ⟨answer, htest, _⟩ := except_bind_eq_ok_iff.mp h
  ⟨answer, htest⟩

/-! ## Runs -/

/-- Two runs of one kind each are merged into one of one kind. -/
theorem alike_of_merge (hkind : RespectsKind before kind) {patience : ℕ} {r : List α × ℕ}
    (hxs : Alike kind xs) (hys : Alike kind ys) (h : merge before patience xs ys = .ok r) :
    Alike kind r.1 := by
  have hperm : r.1.Perm (xs ++ ys) :=
    Multiset.coe_eq_coe.mp ((merge_rearranges before patience xs ys).items_eq r h)
  refine Alike.subset ?_ hperm.subset
  match xs, ys with
  | [], ys => exact hys
  | x :: xs, [] => rwa [List.append_nil]
  | x :: xs, y :: ys =>
    obtain ⟨start, hstart, -⟩ := except_bind_eq_ok_iff.mp h
    obtain ⟨answer, htest⟩ := exists_test_of_countBefore hstart
    exact hxs.append hys List.mem_cons_self List.mem_cons_self (hkind _ _ _ htest).symm

/-- All runs of a sort that is under way are of one kind each. -/
def Progress.RunsAlike (kind : α → κ) (p : Progress α) : Prop :=
  Alike kind p.last ∧ ∀ w ∈ p.waiting, Alike kind w.run

/-- Runs that wait and are of one kind each are so after deeper ones are merged. -/
theorem alike_of_mergeDeeper (hkind : RespectsKind before kind) {depth patience : ℕ}
    {last : List α} {waiting : List (Waiting α)} {p : Progress α} (hlast : Alike kind last)
    (hwaiting : ∀ w ∈ waiting, Alike kind w.run)
    (h : mergeDeeper before depth last patience waiting = .ok p) : p.RunsAlike kind := by
  induction waiting generalizing last patience with
  | nil =>
    cases h
    exact ⟨hlast, nofun⟩
  | cons w waiting ih =>
    obtain ⟨hfirst, hrest⟩ := List.forall_mem_cons.mp hwaiting
    rw [mergeDeeper] at h
    split at h
    · obtain ⟨r, hmerge, h⟩ := except_bind_eq_ok_iff.mp h
      exact ih (alike_of_merge hkind hfirst hlast hmerge) hrest h
    · cases h
      exact ⟨hlast, hwaiting⟩

/-- A further run of one kind leaves runs of one kind each. -/
theorem Progress.RunsAlike.add (hkind : RespectsKind before kind) {total : ℕ}
    {p p' : Progress α} {run : List α} (hp : p.RunsAlike kind) (hrun : Alike kind run)
    (h : p.add before total run = .ok p') : p'.RunsAlike kind := by
  obtain ⟨q, hdeeper, h⟩ := except_bind_eq_ok_iff.mp h
  cases h
  obtain ⟨hlast, hwaiting⟩ := alike_of_mergeDeeper hkind hp.1 hp.2 hdeeper
  exact ⟨hrun, List.forall_mem_cons.mpr ⟨hlast, hwaiting⟩⟩

end SqlComposer.Sorting
