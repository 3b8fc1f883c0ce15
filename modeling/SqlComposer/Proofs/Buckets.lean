import SqlComposer.Clauses
import SqlComposer.Proofs.KeywordOrder

/-!
# Fragments of different buckets

A fragment that is no statement goes to one bucket: it revises the texts in it, in view of these
texts alone, and leaves all others as they are. So only the order of the fragments within each
bucket matters, and fragments of different buckets commute.
-/

namespace SqlComposer

/-- What holds the texts of one clause. -/
inductive Bucket
  | select
  | source
  | joins
  | conditions
  | groupBy
  | orderBy
  | limit
  | offset
  deriving DecidableEq, Repr

/-- The bucket of a keyword. Connectives have none of their own. -/
def Keyword.bucket : Keyword → Bucket
  | .select => .select
  | .source => .source
  | .join => .joins
  | .condition | .conjunction | .disjunction => .conditions
  | .groupBy => .groupBy
  | .orderBy => .orderBy
  | .limit => .limit
  | .offset => .offset

namespace Clauses

/-- The texts in a bucket; there is at most one table expression, limit and offset. -/
def texts (c : Clauses) : Bucket → List Text
  | .select => c.select
  | .source => c.source.toList
  | .joins => c.joins
  | .conditions => c.conditions
  | .groupBy => c.groupBy
  | .orderBy => c.orderBy
  | .limit => c.limit.toList
  | .offset => c.offset.toList

/-- Clauses are known by the texts in their buckets. -/
theorem eq_of_texts_eq {c c' : Clauses} (h : ∀ b, c.texts b = c'.texts b) : c = c' := by
  have hoption {o o' : Option Text} (h : o.toList = o'.toList) : o = o' := by
    cases o <;> cases o' <;> simp_all
  cases c
  cases c'
  rw [Clauses.mk.injEq]
  exact ⟨h .select, hoption (h .source), h .joins, h .conditions, h .groupBy, h .orderBy,
    hoption (h .limit), hoption (h .offset)⟩

end Clauses

namespace Fragment

/-- The bucket that a fragment goes to. A blank one goes to none, and one without a keyword to the
conditions. -/
def bucket? (fragment : Text) : Option Bucket :=
  let body := Text.trim fragment
  if body.isEmpty then none
  else some (((keyword? body).map fun (k, _) => k.bucket).getD .conditions)

/-- Conditions with a further one, after a connective unless it is the first one. -/
def withCondition (connective condition : Text) (conditions : List Text) : List Text :=
  conditions ++ [if conditions.isEmpty then condition else connective ++ ' ' :: condition]

/-- What a fragment that is no statement makes of the texts in its bucket. -/
def revise (texts : List Text) (fragment : Text) : List Text :=
  let body := Text.trim fragment
  match keyword? body with
  | none => withCondition "AND".toList body texts
  | some (.conjunction, operand) => withCondition "AND".toList operand texts
  | some (.disjunction, operand) => withCondition "OR".toList operand texts
  | some (.join, _) => texts ++ [body]
  | some (.condition, operand) | some (.groupBy, operand) | some (.orderBy, operand) =>
    texts ++ [operand]
  | some (_, operand) => [operand]

/-- Whether a fragment is read as a statement. -/
def isStatement (fragment : Text) : Bool :=
  Keyword.select.opens (Text.trim fragment)

/-- A fragment that is no statement revises the texts in its bucket, and no others. -/
theorem texts_add {fragment : Text} (h : isStatement fragment = false) (c : Clauses) (b : Bucket) :
    (add c fragment).texts b =
      if bucket? fragment = some b then revise (c.texts b) fragment else c.texts b := by
  unfold add bucket? revise
  dsimp only
  split
  · simp
  · cases hkeyword : keyword? (Text.trim fragment) with
    | none => cases b <;> rfl
    | some entry =>
      obtain ⟨k, operand⟩ := entry
      cases k with
      | select =>
        rw [isStatement, Keyword.opens_of_first? hkeyword] at h
        cases h
      | _ => cases b <;> rfl

/-- The texts in a bucket after fragments that are no statements are those that the fragments of
this bucket make of the texts before, in their order. -/
theorem texts_foldl_add {fragments : List Text} (h : ∀ t ∈ fragments, isStatement t = false)
    (c : Clauses) (b : Bucket) :
    (fragments.foldl add c).texts b =
      (fragments.filter (bucket? · = some b)).foldl revise (c.texts b) := by
  induction fragments generalizing c with
  | nil => rfl
  | cons t fragments ih =>
    rw [List.forall_mem_cons] at h
    rw [List.foldl_cons, ih h.2, texts_add h.1]
    by_cases hb : bucket? t = some b
    · rw [if_pos hb, List.filter_cons_of_pos (by simpa using hb), List.foldl_cons]
    · rw [if_neg hb, List.filter_cons_of_neg (by simpa using hb)]

/-- Adding a fragment always succeeds: the keyword that is found never lacks its operand. A fragment
that is no statement leaves every bucket but its own as it is. So fragments none of which is a
statement lead to the same clauses, and to the same text, in every order that keeps the fragments of
each bucket in theirs. -/
theorem foldl_add_eq_of_perm :
    (∀ (c : Clauses) (t : Text), tryAdd keywords Statement.keywords c t = .ok (add c t)) ∧
    (∀ (c : Clauses) (t : Text), isStatement t = false →
      ∀ b, bucket? t ≠ some b → (add c t).texts b = c.texts b) ∧
    ∀ (c : Clauses) (fragments order : List Text), (∀ t ∈ fragments, isStatement t = false) →
      order.Perm fragments →
      (∀ b, order.filter (bucket? · = some b) = fragments.filter (bucket? · = some b)) →
      order.foldl add c = fragments.foldl add c ∧
        (order.foldl add c).render = (fragments.foldl add c).render := by
  refine ⟨fun c t => tryAdd_eq_ok .rfl .rfl c t, ?_, ?_⟩
  · intro c t h b hb
    rw [texts_add h, if_neg hb]
  · intro c fragments order h hperm hbuckets
    have horder : ∀ t ∈ order, isStatement t = false := fun t ht => h t (hperm.subset ht)
    have hclauses : order.foldl add c = fragments.foldl add c := by
      apply Clauses.eq_of_texts_eq
      intro b
      rw [texts_foldl_add horder, texts_foldl_add h, hbuckets b]
    exact ⟨hclauses, by rw [hclauses]⟩

/-- Two limits and conditions of all kinds, each in their order, between other fragments in any. -/
theorem foldl_add_eq_of_perm_mixed :
    let c : Clauses := { select := [['*']] }
    let fragments := ["WHERE a".toList, "LIMIT 1".toList, " or b\n".toList, "JOIN u".toList,
      "limit 2".toList, "d = 3".toList, "Order  By e".toList, "AND f".toList]
    let order := ["Order  By e".toList, "WHERE a".toList, " or b\n".toList, "d = 3".toList,
      "AND f".toList, "LIMIT 1".toList, "limit 2".toList, "JOIN u".toList]
    let result : Clauses :=
      { select := [['*']], joins := ["JOIN u".toList]
        conditions := [['a'], "OR b".toList, "AND d = 3".toList, "AND f".toList]
        orderBy := [['e']], limit := some ['2'] }
    (∀ t ∈ fragments, isStatement t = false) ∧ order.Perm fragments ∧
      (∀ b, order.filter (bucket? · = some b) = fragments.filter (bucket? · = some b)) ∧
      fragments.foldl add c = result ∧ order.foldl add c = result ∧
      (order.foldl add c).render = (fragments.foldl add c).render ∧
      tryAdd keywords Statement.keywords c "AND f".toList = .ok { c with conditions := [['f']] } ∧
      bucket? "AND f".toList ≠ some .limit ∧
      (add result "AND f".toList).texts .limit = result.texts .limit := by
  intro c fragments order result
  obtain ⟨hadd, hframe, hperm⟩ := foldl_add_eq_of_perm
  have hstatements : ∀ t ∈ fragments, isStatement t = false := by decide +kernel
  have horder : order.Perm fragments := by decide +kernel
  have hbuckets (b : Bucket) :
      order.filter (bucket? · = some b) = fragments.filter (bucket? · = some b) := by
    cases b <;> decide +kernel
  have hresult : fragments.foldl add c = result := by decide +kernel
  have hother : bucket? "AND f".toList ≠ some .limit := by decide +kernel
  obtain ⟨hclauses, hrender⟩ := hperm c fragments order hstatements horder hbuckets
  refine ⟨hstatements, horder, hbuckets, hresult, hclauses.trans hresult, hrender, ?_, hother,
    hframe result "AND f".toList (by decide +kernel) .limit hother⟩
  rw [hadd c "AND f".toList]
  decide +kernel

end Fragment

end SqlComposer
