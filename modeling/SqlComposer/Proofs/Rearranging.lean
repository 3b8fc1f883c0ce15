import Mathlib
import SqlComposer.Proofs.Logged
import SqlComposer.Sorting.Basic

/-!
# What is compared in a sort

A sort moves values and compares them, whatever the comparison is worth: it need be no order, and it
may fail. Each step is looked at with the values that it works on. Nothing is lost or added among
them, and the step fails only where the comparison of two of them fails. So a sorted list is a
rearrangement.
-/

namespace SqlComposer.Sorting

variable {ε α β γ : Type}

/-- A failure is that of the comparison of two values of a pool. -/
def Disputes (before : Comparison ε α) (pool : Multiset α) (e : ε) : Prop :=
  ∃ a b, {a, b} ≤ pool ∧ before a b = .error e

/-- What is a matter of some values is one of more values. -/
theorem Disputes.mono {before : Comparison ε α} {pool pool' : Multiset α} {e : ε}
    (h : Disputes before pool e) (hpool : pool ≤ pool') : Disputes before pool' e :=
  let ⟨a, b, hle, herror⟩ := h
  ⟨a, b, hle.trans hpool, herror⟩

/-- A computation that works on a pool of values: the items of its result are these values, and it
fails only where the comparison of two of them does. -/
structure Rearranges (before : Comparison ε α) (pool : Multiset α) (items : β → Multiset α)
    (x : Except ε β) : Prop where
  /-- The items of the result are the values of the pool. -/
  items_eq : ∀ b, x = .ok b → items b = pool
  /-- Two of the values are compared where the computation fails. -/
  disputes : ∀ e, x = .error e → Disputes before pool e

namespace Rearranges

variable {before : Comparison ε α} {pool : Multiset α} {items : β → Multiset α} {x : Except ε β}

/-- A result with the values of the pool needs no comparison. -/
theorem ok {b : β} (h : items b = pool) : Rearranges before pool items (.ok b) :=
  ⟨fun _ hok => by cases hok; exact h, nofun⟩

/-- Values of the pool may be looked at. -/
theorem look (h : ∀ e, x = .error e → Disputes before pool e) :
    Rearranges before pool (fun _ => pool) x :=
  ⟨fun _ _ => rfl, h⟩

/-- One computation comes after another one on the same pool. -/
theorem bind {items' : γ → Multiset α} {f : β → Except ε γ} (hx : Rearranges before pool items x)
    (hf : ∀ b, x = .ok b → items b = pool → Rearranges before pool items' (f b)) :
    Rearranges before pool items' (x >>= f) := by
  constructor
  · intro c hok
    obtain ⟨b, hb, hc⟩ := except_bind_eq_ok_iff.mp hok
    exact (hf b hb (hx.items_eq b hb)).items_eq c hc
  · intro e herror
    rcases except_bind_eq_error_iff.mp herror with he | ⟨b, hb, he⟩
    · exact hx.disputes e he
    · exact (hf b hb (hx.items_eq b hb)).disputes e he

/-- A part of the pool may be worked on, while the rest is left alone. -/
theorem within {part : Multiset α} (hx : Rearranges before part items x) (rest : Multiset α)
    (h : rest + part = pool) : Rearranges before pool (fun b => rest + items b) x :=
  ⟨fun b hb => (congrArg (rest + ·) (hx.items_eq b hb)).trans h,
    fun e he => (hx.disputes e he).mono (h ▸ Multiset.le_add_left _ _)⟩

/-- The pool is known by its values. -/
theorem congr {pool' : Multiset α} (hx : Rearranges before pool items x) (h : pool = pool') :
    Rearranges before pool' items x :=
  h ▸ hx

/-- Of a result, something with the same items may be made. -/
theorem map {items' : γ → Multiset α} {f : β → γ} (hx : Rearranges before pool items x)
    (hf : ∀ b, items' (f b) = items b) : Rearranges before pool items' (f <$> x) := by
  constructor
  · intro c hok
    obtain ⟨b, hb, rfl⟩ := except_map_eq_ok_iff.mp hok
    exact (hf b).trans (hx.items_eq b hb)
  · exact fun e herror => hx.disputes e (except_map_eq_error_iff.mp herror)

end Rearranges

/-- A member of the second part of a pool and one of the first part are two of its values. -/
theorem pair_le_add {a b : α} {s t : Multiset α} (ha : a ∈ s) (hb : b ∈ t) :
    ({b, a} : Multiset α) ≤ s + t := by
  rw [Multiset.pair_comm]
  exact add_le_add (Multiset.singleton_le.mpr ha) (Multiset.singleton_le.mpr hb)

/-- The front of a list and the rest of it are the values of the list. -/
theorem coe_take_add_coe_drop (n : ℕ) (xs : List α) :
    (xs.take n : Multiset α) + xs.drop n = xs :=
  congrArg Multiset.ofList (List.take_append_drop n xs)

/-! ## Searching -/

/-- A bisection fails only where a test of a value does. -/
theorem bisect_eq_error {d : Direction} {test : α → Except ε Bool} {xs : List α} {low high : ℕ}
    {e : ε} (h : bisect d test xs low high = .error e) : ∃ x ∈ xs, test x = .error e := by
  fun_induction bisect d test xs low high with
  | case1 => cases h
  | case2 low high hlow x hx e' htest =>
    cases h
    exact ⟨x, List.mem_of_getElem? hx, htest⟩
  | case3 low high hlow x hx htest ih => exact ih h
  | case4 low high hlow x hx htest ih => exact ih h
  | case5 => cases h

/-- A leaping search fails only where a test of a value does. -/
theorem leap_eq_error {test : α → Except ε Bool} {xs : List α} {last next : ℕ} {e : ε}
    (h : leap test xs last next = .error e) : ∃ x ∈ xs, test x = .error e := by
  fun_induction leap test xs last next with
  | case1 => cases h
  | case2 last next x hx e' htest =>
    cases h
    exact ⟨x, List.mem_of_getElem? hx, htest⟩
  | case3 => cases h
  | case4 last next x hx htest ih => exact ih h

/-- Values are counted in vain only where a test of one of them fails. -/
theorem countBefore_eq_error {d : Direction} {test : α → Except ε Bool} {xs : List α} {e : ε}
    (h : countBefore d test xs = .error e) : ∃ x ∈ xs, test x = .error e := by
  cases xs with
  | nil => cases h
  | cons x xs =>
    rcases except_bind_eq_error_iff.mp h with htest | ⟨passes, -, h⟩
    · exact ⟨x, List.mem_cons_self, htest⟩
    · split at h
      · cases h
      · rcases except_bind_eq_error_iff.mp h with hleap | ⟨range, -, hbisect⟩
        · exact leap_eq_error hleap
        · exact bisect_eq_error hbisect

/-! ## Runs -/

section Runs

variable (before : Comparison ε α)

end Runs

/-! ## Merging -/

section Merging

variable (before : Comparison ε α)

/-- What is left of two runs holds the values of both, from either end. -/
theorem coe_leftOver (d : Direction) (first second : List α) :
    (leftOver d first second : Multiset α) = (first : Multiset α) + second := by
  cases d with
  | forward => exact add_comm (second : Multiset α) first
  | backward => rfl

variable {before} in
/-- Two values are tried for the order of their runs by comparing them. -/
theorem secondFirst_eq_error {d : Direction} {x y : α} {e : ε}
    (h : secondFirst d before x y = .error e) : before y x = .error e := by
  cases d with
  | forward => exact h
  | backward => exact except_map_eq_error_iff.mp h

/-- Behind the values that are placed, the stretch of the second run and a value of the first run
are taken before the merge goes on, at either pace. -/
theorem secondStretch_rearranges (d : Direction) (next firsts : ℕ) (front : List α) (x : α)
    (xs ys : List α)
    (hstretches : ∀ seconds, Rearranges before ((xs : Multiset α) + ys.drop seconds)
      (fun r => (r.1 : Multiset α))
      (mergeFrom d before .stretches next (lessPatience next) xs (ys.drop seconds)))
    (hsingle : ∀ seconds, Rearranges before ((xs : Multiset α) + ys.drop seconds)
      (fun r => (r.1 : Multiset α))
      (mergeFrom d before (.single 0 0) next (next + 1) xs (ys.drop seconds))) :
    Rearranges before ((front : Multiset α) + ((x :: xs : List α) + ys))
      (fun r : List α × ℕ => (r.1 : Multiset α)) (do
        let seconds ← countBefore d (fun y => (!·) <$> secondFirst d before x y) ys
        let front := front ++ ys.take seconds
        if isOver d (x :: xs) (ys.drop seconds) then
          return (front ++ leftOver d (x :: xs) (ys.drop seconds), next)
        let (merged, patience) ←
          if longStretch ≤ firsts ∨ longStretch ≤ seconds then
            mergeFrom d before .stretches next (lessPatience next) xs (ys.drop seconds)
          else mergeFrom d before (.single 0 0) next (next + 1) xs (ys.drop seconds)
        return (front ++ x :: merged, patience)) := by
  refine (Rearranges.look fun e herror => ?_).bind fun seconds _ _ => ?_
  · obtain ⟨y, hy, htest⟩ := countBefore_eq_error herror
    exact ⟨y, x, (pair_le_add List.mem_cons_self hy).trans (Multiset.le_add_left _ _),
      secondFirst_eq_error (except_map_eq_error_iff.mp htest)⟩
  rw [← coe_take_add_coe_drop seconds ys]
  split
  · refine .ok ?_
    simp only [← Multiset.coe_add, coe_leftOver]
    abel
  let kept := front ++ ys.take seconds ++ [x]
  have hpool : (kept : Multiset α) + ((xs : Multiset α) + ys.drop seconds) =
      front + ((x :: xs : List α) + ((ys.take seconds : Multiset α) + ys.drop seconds)) := by
    simp only [kept, ← Multiset.coe_add, ← Multiset.cons_coe, ← Multiset.singleton_add]
    abel
  have hmerged : ∀ merged : List α, ((front ++ ys.take seconds ++ x :: merged : List α) :
      Multiset α) = kept + (merged : Multiset α) := by
    intro merged
    simp [kept]
  split
  · exact ((hstretches seconds).within _ hpool).bind fun r _ hitems =>
      .ok ((hmerged r.1).trans hitems)
  · exact ((hsingle seconds).within _ hpool).bind fun r _ hitems =>
      .ok ((hmerged r.1).trans hitems)

/-- Where the merge is not over, the stretches of both runs are taken one after the other, and what
is left is merged on. -/
theorem stretches_rearranges {d : Direction} {patience next : ℕ} {first ys : List α} {y : α}
    (hover : ¬isOver d first (y :: ys) = true)
    (hstretches : ∀ firsts x xs, first.drop firsts = x :: xs → ∀ seconds,
      Rearranges before ((xs : Multiset α) + ys.drop seconds) (fun r => (r.1 : Multiset α))
        (mergeFrom d before .stretches next (lessPatience next) xs (ys.drop seconds)))
    (hsingle : ∀ firsts x xs, first.drop firsts = x :: xs → ∀ seconds,
      Rearranges before ((xs : Multiset α) + ys.drop seconds) (fun r => (r.1 : Multiset α))
        (mergeFrom d before (.single 0 0) next (next + 1) xs (ys.drop seconds))) :
    Rearranges before ((first : Multiset α) + (y :: ys : List α)) (fun r => (r.1 : Multiset α))
      (mergeFrom d before .stretches patience next first (y :: ys)) := by
  rw [mergeFrom, if_neg hover]
  refine (Rearranges.look fun e herror => ?_).bind fun firsts _ _ => ?_
  · obtain ⟨x, hx, htest⟩ := countBefore_eq_error herror
    exact ⟨y, x, pair_le_add hx List.mem_cons_self, secondFirst_eq_error htest⟩
  -- The merge may be over after the stretch of the first run, or after the value behind it.
  rw [← coe_take_add_coe_drop firsts first]
  split
  · refine .ok ?_
    simp only [← Multiset.coe_add, coe_leftOver]
    abel
  split
  · refine .ok ?_
    simp only [← Multiset.coe_add, coe_leftOver, ← Multiset.cons_coe, ← Multiset.singleton_add]
    abel
  split
  case h_1 hdrop =>
    refine .ok ?_
    simp only [hdrop, ← Multiset.coe_add, ← Multiset.cons_coe, ← Multiset.singleton_add]
    abel
  case h_2 x xs hdrop =>
    have hsecond := secondStretch_rearranges before d next firsts (first.take firsts ++ [y]) x xs ys
      (hstretches firsts x xs hdrop) (hsingle firsts x xs hdrop)
    refine hsecond.congr ?_
    rw [hdrop]
    simp only [← Multiset.coe_add, ← Multiset.cons_coe, ← Multiset.singleton_add]
    abel

/-- A merge from one end holds the values of both runs, at either pace. -/
theorem mergeFrom_rearranges (d : Direction) (pace : Pace) (patience next : ℕ)
    (first second : List α) :
    Rearranges before ((first : Multiset α) + second) (fun r => (r.1 : Multiset α))
      (mergeFrom d before pace patience next first second) := by
  induction pace, patience, next, first, second using mergeFrom.induct d with
  | case1 pace patience next first second hover =>
    unfold mergeFrom
    rw [if_pos hover]
    exact .ok (coe_leftOver d first second)
  | case2 patience next firsts seconds x xs y ys hover ihSecond ihFirst =>
    rw [mergeFrom, if_neg hover]
    refine (Rearranges.look fun e herror => ?_).bind fun takes _ _ => ?_
    · exact ⟨y, x, pair_le_add List.mem_cons_self List.mem_cons_self,
        secondFirst_eq_error herror⟩
    split
    · exact (ihSecond.within {y} (add_left_comm _ _ _)).bind fun _ _ hitems => .ok hitems
    · exact (ihFirst.within {x} rfl).bind fun _ _ hitems => .ok hitems
  | case3 patience next first y ys hover ihStretches ihSingle =>
    exact stretches_rearranges before hover ihStretches ihSingle
  | case4 pace patience next first second hsingle hstretches hover =>
    unfold mergeFrom
    rw [if_neg hover]
    split
    · exact (hsingle _ _ _ _ _ _ rfl rfl rfl).elim
    · exact (hstretches _ _ rfl rfl).elim
    · exact .ok (coe_leftOver d _ _)

/-- Two runs that overlap are merged into one with the values of both. -/
theorem mergeOverlapping_rearranges (patience : ℕ) (first second : List α) :
    Rearranges before ((first : Multiset α) + second) (fun r => (r.1 : Multiset α))
      (mergeOverlapping before patience first second) := by
  unfold mergeOverlapping
  split
  · match second with
    | [] => exact .ok (add_zero _).symm
    | y :: ys =>
      have hrest := mergeFrom_rearranges before .forward (.single 0 0) patience patience first ys
      exact (hrest.within {y} (add_left_comm _ _ _)).bind fun _ _ hitems => .ok hitems
  · rw [← Multiset.coe_reverse first]
    split
    case h_1 hfirst =>
      rw [hfirst]
      exact .ok (zero_add _).symm
    case h_2 x xs hfirst =>
      have hrest := mergeFrom_rearranges before .backward (.single 0 0) patience patience xs
        second.reverse
      have hpool : {x} + ((xs : Multiset α) + second.reverse) = first.reverse + second := by
        rw [hfirst, Multiset.coe_reverse, ← Multiset.cons_coe, ← Multiset.singleton_add, add_assoc]
      refine (hrest.within {x} hpool).bind fun r _ hitems => .ok ?_
      rw [← hitems, Multiset.coe_reverse]
      rfl

/-- Two neighbouring runs are merged into one with the values of both. -/
theorem merge_rearranges (patience : ℕ) (first second : List α) :
    Rearranges before ((first : Multiset α) + second) (fun r => (r.1 : Multiset α))
      (merge before patience first second) := by
  match second with
  | [] => exact .ok (add_zero _).symm
  | y :: ys =>
    unfold merge
    refine (Rearranges.look fun e herror => ?_).bind fun start _ _ => ?_
    · obtain ⟨x, hx, htest⟩ := countBefore_eq_error herror
      exact ⟨y, x, pair_le_add hx List.mem_cons_self, htest⟩
    split
    · exact .ok rfl
    case h_2 x hlast =>
      have hx : x ∈ first := List.mem_of_mem_drop (List.mem_of_getLast? hlast)
      refine (Rearranges.look fun e herror => ?_).bind fun behind _ _ => ?_
      · obtain ⟨y', hy', htest⟩ := countBefore_eq_error herror
        exact ⟨y', x, pair_le_add hx (List.mem_reverse.mp hy'), htest⟩
      dsimp only
      split
      · exact .ok rfl
      generalize (y :: ys).length - behind = stop
      have hpool : ((first.take start : Multiset α) + (y :: ys).drop stop) +
          ((first.drop start : Multiset α) + (y :: ys).take stop) =
            (first : Multiset α) + (y :: ys : List α) := by
        rw [← coe_take_add_coe_drop start first, ← coe_take_add_coe_drop stop (y :: ys)]
        abel
      refine ((mergeOverlapping_rearranges before patience _ _).within _ hpool).bind
        fun r _ hitems => .ok ?_
      rw [← hitems]
      simp only [← Multiset.coe_add]
      abel

end Merging

/-! ## Sorting -/

section Sorting

variable (before : Comparison ε α)

end Sorting

end SqlComposer.Sorting
