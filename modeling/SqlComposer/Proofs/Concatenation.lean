import SqlComposer.Proofs.Leniency

/-!
# Templates one after the other

The concatenation of two templates makes one text of the last segment of the first and the first
segment of the second. To fill it in is to fill in the first template and then, with the parameters
that this leaves, the second one: the texts come one after the other, and it fails exactly where one
of the two does, in the same way.
-/

namespace SqlComposer

namespace Template

/-- The last segment. -/
def last (t : Template) : Value :=
  t.segments.getLast (List.cons_ne_nil _ _)

/-- A segment and gaps behind it, and then another template. -/
def appendFrom (segment : Value) (gaps : List Gap) (u : Template) : Template :=
  match gaps with
  | [] => ⟨.text (segment.segmentText ++ u.first.segmentText), u.gaps⟩
  | gap :: gaps =>
    let rest := appendFrom gap.after gaps u
    ⟨segment, ⟨gap.value, rest.first⟩ :: rest.gaps⟩

/-- One template and then another one. -/
def append (t u : Template) : Template :=
  appendFrom t.first t.gaps u

/-- The values of the one template come before those of the other. -/
theorem values_append (t u : Template) : (t.append u).values = t.values ++ u.values := by
  obtain ⟨first, gaps⟩ := t
  induction gaps generalizing first with
  | nil => rfl
  | cons gap gaps ih => exact congrArg (gap.value :: ·) (ih gap.after)

/-- The last segment of the first template and the first one of the second are one text. -/
theorem segments_append (t u : Template) :
    (t.append u).segments = t.segments.dropLast ++
      .text (t.last.segmentText ++ u.first.segmentText) :: u.segments.tail := by
  obtain ⟨first, gaps⟩ := t
  induction gaps generalizing first with
  | nil => rfl
  | cons gap gaps ih => exact congrArg (first :: ·) (ih gap.after)

/-- A template is made of its segments and its values. -/
theorem ofParts_segments_values (t : Template) : ofParts t.segments t.values = .ok t := by
  obtain ⟨first, gaps⟩ := t
  have hlength : (gaps.map Gap.after).length = (gaps.map Gap.value).length := by simp
  have hgaps : (gaps.map Gap.value).zipWith Gap.mk (gaps.map Gap.after) = gaps := by
    rw [List.zipWith_map_left, List.zipWith_map_right, List.zipWith_self]
    exact List.map_id _
  rw [segments, values, ofParts, if_pos hlength, hgaps]

/-- One template and then another one have text if both do. -/
theorem hasText_append {t u : Template} (ht : t.HasText) (hu : u.HasText) :
    (t.append u).HasText := by
  have hrest : ∀ segment ∈ u.segments.tail, segment.text?.isSome = true :=
    fun segment hsegment => hu segment (List.mem_of_mem_tail hsegment)
  rw [HasText, segments_append, List.forall_mem_append, List.forall_mem_cons]
  exact ⟨fun segment hsegment => ht segment (List.mem_of_mem_dropLast hsegment), rfl, hrest⟩

end Template

/-! ## Filling in -/

variable (mode : FillMode) (parameters : Entries) (counter : ℤ)

/-- A template without gaps is its segment. -/
theorem outcome_interpolate_nil {first : Value} (hfirst : first.text?.isSome = true) :
    (interpolate mode ⟨first, []⟩ parameters counter).outcome =
      .ok ⟨first.segmentText, parameters, counter⟩ := by
  have htext : Template.HasText ⟨first, []⟩ := List.forall_mem_singleton.mpr hfirst
  rw [interpolate_eq_of_hasText mode htext]
  exact congrArg (fun t => Except.ok (Interpolation.mk t parameters counter)) (List.append_nil _)

/-- A template with a gap is its first segment, what is written for the value of the gap, and the
template behind the gap, with the parameters that the gap leaves. -/
theorem outcome_interpolate_cons {first : Value} {gap : Gap} {gaps : List Gap}
    (htext : Template.HasText ⟨first, gap :: gaps⟩) :
    (interpolate mode ⟨first, gap :: gaps⟩ parameters counter).outcome = (do
      let (part, parameters, counter) ← (mode.fillValue parameters counter gap.value).outcome
      let rest ← (interpolate mode ⟨gap.after, gaps⟩ parameters counter).outcome
      return { rest with text := first.segmentText ++ part ++ rest.text }) := by
  have hrest : Template.HasText ⟨gap.after, gaps⟩ := (List.forall_mem_cons.mp htext).2
  simp only [interpolate_eq_of_hasText mode htext, interpolate_eq_of_hasText mode hrest,
    FillMode.fillGaps, Logged.outcome_bind, Logged.outcome_report, Logged.outcome_pure]
  cases (mode.fillValue parameters counter gap.value).outcome with
  | error e => rfl
  | ok filled =>
    obtain ⟨part, parameters', counter'⟩ := filled
    change ((mode.fillGaps parameters' counter' gaps).outcome >>= _) >>= _ =
      ((mode.fillGaps parameters' counter' gaps).outcome >>= _) >>= _
    cases (mode.fillGaps parameters' counter' gaps).outcome with
    | error e => rfl
    | ok filling =>
      have hpart : (Value.text part).segmentText = part := rfl
      simp [bind, Except.bind, pure, Except.pure, hpart]

/-- Text before a template stays before what the template yields. -/
theorem outcome_interpolate_text_append (t : Text) {u : Template} (hu : u.HasText) :
    (interpolate mode ⟨.text (t ++ u.first.segmentText), u.gaps⟩ parameters counter).outcome =
      (fun filled => { filled with text := t ++ filled.text }) <$>
        (interpolate mode u parameters counter).outcome := by
  have htext : Template.HasText ⟨.text (t ++ u.first.segmentText), u.gaps⟩ :=
    List.forall_mem_cons.mpr ⟨rfl, (List.forall_mem_cons.mp hu).2⟩
  have hfirst : (Value.text (t ++ u.first.segmentText)).segmentText =
      t ++ u.first.segmentText := rfl
  simp only [interpolate_eq_of_hasText mode htext, interpolate_eq_of_hasText mode hu,
    Logged.outcome_bind, Logged.outcome_report, Logged.outcome_pure, hfirst]
  cases (mode.fillGaps parameters counter u.gaps).outcome with
  | error e => rfl
  | ok filling => simp [bind, Except.bind, Functor.map, Except.map]

/-- To fill in one template and then another one is to fill in the first, and then the second with
the parameters that the first leaves. Either both succeed, and then the texts come one after the
other, or the first failure of the two is the failure of the whole. -/
theorem interpolate_append {t u : Template} (ht : t.HasText) (hu : u.HasText) :
    Template.ofParts
        (t.segments.dropLast ++
          .text (t.last.segmentText ++ u.first.segmentText) :: u.segments.tail)
        (t.values ++ u.values) = .ok (t.append u) ∧
      (interpolate mode (t.append u) parameters counter).outcome = (do
        let former ← (interpolate mode t parameters counter).outcome
        let latter ← (interpolate mode u former.parameters former.counter).outcome
        return ⟨former.text ++ latter.text, latter.parameters, latter.counter⟩) := by
  rw [← Template.segments_append, ← Template.values_append]
  refine ⟨Template.ofParts_segments_values _, ?_⟩
  have happend := Template.hasText_append ht hu
  obtain ⟨first, gaps⟩ := t
  induction gaps generalizing first parameters counter with
  | nil =>
    rw [outcome_interpolate_nil mode parameters counter (ht first List.mem_cons_self)]
    exact outcome_interpolate_text_append mode parameters counter first.segmentText hu
  | cons gap gaps ih =>
    have hrest : Template.HasText ⟨gap.after, gaps⟩ := (List.forall_mem_cons.mp ht).2
    have hlater : (Template.append ⟨gap.after, gaps⟩ u).HasText :=
      (List.forall_mem_cons.mp happend).2
    rw [outcome_interpolate_cons mode parameters counter ht]
    refine (outcome_interpolate_cons mode parameters counter happend).trans ?_
    -- What the value of the gap leaves is what the rest of both templates starts with.
    cases (mode.fillValue parameters counter gap.value).outcome with
    | error e => rfl
    | ok filled =>
      obtain ⟨part, parameters', counter'⟩ := filled
      change (interpolate mode (Template.append ⟨gap.after, gaps⟩ u) parameters' counter').outcome
          >>= _ =
        ((interpolate mode ⟨gap.after, gaps⟩ parameters' counter').outcome >>= _) >>= _
      rw [ih parameters' counter' gap.after hrest hlater]
      cases (interpolate mode ⟨gap.after, gaps⟩ parameters' counter').outcome with
      | error e => rfl
      | ok former =>
        simp only [bind, Except.bind, pure, Except.pure]
        cases (interpolate mode u former.parameters former.counter).outcome with
        | error e => rfl
        | ok latter => simp only [List.append_assoc]

/-- Cut inside a word, a condition on two values takes the numbers $0 and $1 after the counter -1,
and the mapping with two keys gives its first value, which is absent. The key that is true equals
the number one, under which its value is replaced. -/
theorem interpolate_append_within_word :
    let mode : FillMode := { strict := false }
    let two : Value := .map [(.text ['x'], .null), (.text ['y'], .int 2)]
    let t : Template := ⟨.text "a = ".toList, [⟨.int 1, .text " AN".toList⟩]⟩
    let u : Template := ⟨.text "D b = ".toList, [⟨two, .text []⟩]⟩
    t.HasText ∧ u.HasText ∧
      t.append u = ⟨.text "a = ".toList,
        [⟨.int 1, .text " AND b = ".toList⟩, ⟨two, .text []⟩]⟩ ∧
      (interpolate mode (t.append u) [(.bool true, .text ['p'])] (-1)).outcome =
        .ok ⟨"a = $0 AND b = $1".toList, [(.bool true, .null), (.int 0, .int 1)], 1⟩ := by
  intro mode two t u
  have ht : t.HasText := by decide
  have hu : u.HasText := by decide
  have hformer : (interpolate mode t [(.bool true, .text ['p'])] (-1)).outcome =
      .ok ⟨"a = $0 AN".toList, [(.bool true, .text ['p']), (.int 0, .int 1)], 0⟩ := by
    refine (congrArg Logged.outcome (interpolate_eq_filled mode ht _ ?_
      (List.forall_mem_singleton.mpr ?_))).trans ?_
    · intro n hlow hhigh
      exact canMark_of_lt_ten (by change n ≤ -1 + 1 at hhigh; omega)
    · exact FillMode.failure?_eq_none_iff.mpr ⟨by decide, rfl⟩
    · with_unfolding_all rfl
  have hlatter : (interpolate mode u [(.bool true, .text ['p']), (.int 0, .int 1)] 0).outcome =
      .ok ⟨"D b = $1".toList, [(.bool true, .null), (.int 0, .int 1)], 1⟩ := by
    refine (congrArg Logged.outcome (interpolate_eq_filled mode hu _ ?_
      (List.forall_mem_singleton.mpr ?_))).trans ?_
    · intro n hlow hhigh
      exact canMark_of_lt_ten (by change n ≤ 0 + 1 at hhigh; omega)
    · exact FillMode.failure?_eq_none_iff.mpr ⟨by decide, rfl⟩
    · with_unfolding_all rfl
  refine ⟨ht, hu, rfl, (interpolate_append mode _ _ ht hu).2.trans ?_⟩
  exact except_bind_eq_ok_iff.mpr ⟨_, hformer, except_bind_eq_ok_iff.mpr ⟨_, hlatter, rfl⟩⟩

end SqlComposer
