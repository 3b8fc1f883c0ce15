import SqlComposer.Proofs.Call

/-!
# Values stay out of texts and events

Two runs of calls are alike when their templates have the same segments and their values are of the
same kind gap by gap. Alike runs agree step by step: both report the same events and fail in the
same way, or make queries of the same clauses and counter. So neither the text of a query nor what
is reported tells one value from another of its kind.
-/

namespace SqlComposer

/-! ## Alike values -/

/-- What filling in may learn of a value. -/
inductive Value.Kind
  /-- The absent value. -/
  | absent
  /-- Raw text or a query, by what is written for it. -/
  | inlined (shown : Text)
  /-- A parameter object, by its keys in order. -/
  | mapping (keys : List Value)
  /-- Any other value. -/
  | other

/-- The kind of a value. -/
def Value.kind : Value → Value.Kind
  | .null => .absent
  | .raw t => .inlined t
  | .query q => .inlined q.clauses.render
  | .map entries => .mapping (Entries.keys entries)
  | _ => .other

/-- Two segments are the same as text, or the same value. -/
def Value.SameSegment (v w : Value) : Prop :=
  v = w ∨ ∃ t, v.text? = some t ∧ w.text? = some t

/-- Two gaps hold values of the same kind before the same segment. -/
structure Gap.Alike (g g' : Gap) : Prop where
  /-- The values are of the same kind. -/
  kind_eq : g.value.kind = g'.value.kind
  /-- The segments are the same. -/
  after : g.after.SameSegment g'.after

/-- Two templates have the same segments and, gap by gap, values of the same kind. -/
structure Template.Alike (t t' : Template) : Prop where
  /-- The first segments are the same. -/
  first : t.first.SameSegment t'.first
  /-- The gaps are alike. -/
  gaps : List.Forall₂ Gap.Alike t.gaps t'.gaps

/-- Two queries differ in nothing but the values of their parameters. -/
structure QueryOf.Alike (q r : Query) : Prop where
  /-- The clauses are the same. -/
  clauses_eq : q.clauses = r.clauses
  /-- The counters are the same. -/
  counter_eq : q.counter = r.counter
  /-- The keys of the parameters are the same. -/
  keys_eq : Entries.keys q.parameters = Entries.keys r.parameters

/-- Alike queries have the same text. -/
theorem QueryOf.Alike.text_eq {q r : Query} (h : QueryOf.Alike q r) : q.text = r.text :=
  congrArg Clauses.render h.clauses_eq

/-- The same segment is text in both places, or in neither. -/
theorem Value.SameSegment.text?_eq {v w : Value} (h : v.SameSegment w) : v.text? = w.text? := by
  obtain rfl | ⟨t, hv, hw⟩ := h
  · rfl
  · rw [hv, hw]

/-- A value of the kind of a parameter object is one. -/
theorem Value.exists_map_of_kind {v : Value} {keys : List Value} (h : v.kind = .mapping keys) :
    ∃ entries : Entries, v = .map entries ∧ entries.keys = keys := by
  cases v <;> cases h
  exact ⟨_, rfl, rfl⟩

/-! ## Filling in -/

/-- The keys after a value has been put under a number depend on the keys before. -/
theorem Entries.keys_put_congr {entries entries' : Entries} (n : ℤ) (value value' : Value)
    (h : entries.keys = entries'.keys) :
    (entries.put n value).keys = (entries'.put n value').keys := by
  induction entries generalizing entries' with
  | nil =>
    cases entries' with
    | nil => rfl
    | cons entry entries' => cases h
  | cons entry entries ih =>
    cases entries' with
    | nil => cases h
    | cons entry' entries' =>
      obtain ⟨key, old⟩ := entry
      obtain ⟨key', old'⟩ := entry'
      simp only [keys, List.map_cons, List.cons.injEq] at h
      obtain ⟨rfl, hrest⟩ := h
      by_cases hkey : key.isNumber n = true
      · simpa [put, hkey, keys] using hrest
      · have := ih hrest
        simp only [keys] at this
        simp [put, hkey, keys, this]

/-- Whether keys pass the check of a query does not depend on the values under them. -/
theorem Entries.isDense_congr {entries entries' : Entries} (counter : ℤ)
    (h : entries.keys = entries'.keys) : entries.isDense counter = entries'.isDense counter := by
  have hlength : entries.length = entries'.length := by
    simpa [keys] using congrArg List.length h
  rw [isDense, isDense, h, hlength]

namespace FillMode

variable {mode : FillMode}

/-- What is written as it is depends on the kind of a value. -/
theorem inlineText?_congr (hinline : mode.inlines = Value.isInline true) {v w : Value}
    (h : v.kind = w.kind) : mode.inlineText? v = mode.inlineText? w := by
  have hkind : ∀ v : Value, mode.inlineText? v =
      match v.kind with
      | .absent => some (.ok "NULL".toList)
      | .inlined shown => some (.ok shown)
      | _ => none := by
    intro v
    cases v <;> simp [inlineText?, Value.isInline, Value.display, Value.kind, hinline]
  rw [hkind, hkind, h]

/-- A value that is no parameter object stands for itself. -/
theorem parameter_eq_result {v : Value} (h : ∀ keys, v.kind ≠ .mapping keys) :
    mode.parameter v = .result v := by
  cases v with
  | map entries => exact (h _ rfl).elim
  | _ => rfl

/-- Parameter objects with the same keys are refused alike, or report the same keys as dropped. -/
theorem parameter_map_agree {entries entries' : Entries} (h : entries.keys = entries'.keys) :
    Logged.Agree (fun _ _ => True) (mode.parameter (.map entries))
      (mode.parameter (.map entries')) := by
  have hreport : Logged.Agree (fun _ _ => True)
      (if mode.strict then .ofExcept (.error (refuse entries.keys))
        else do
          reportDropped entries.keys
          return (Value.map entries).stored)
      (if mode.strict then .ofExcept (.error (refuse entries'.keys))
        else do
          reportDropped entries'.keys
          return (Value.map entries').stored) := by
    rw [h]
    split
    · exact .error _ _
    · exact (Logged.Agree.refl _).bind fun _ _ _ => .pure trivial
  match entries, entries', h with
  | [], [], _ => exact hreport
  | [(_, _)], [(_, _)], _ => exact .pure trivial
  | _ :: _ :: _, _ :: _ :: _, _ => exact hreport

/-- Values of the same kind are refused alike, and the same keys are reported as dropped. -/
theorem parameter_agree {v w : Value} (h : v.kind = w.kind) :
    Logged.Agree (fun _ _ => True) (mode.parameter v) (mode.parameter w) := by
  by_cases hmap : ∃ keys, v.kind = .mapping keys
  · obtain ⟨keys, hv⟩ := hmap
    obtain ⟨entries, rfl, rfl⟩ := Value.exists_map_of_kind hv
    obtain ⟨entries', rfl, hkeys⟩ := Value.exists_map_of_kind (h.symm.trans hv)
    exact parameter_map_agree hkeys.symm
  · rw [not_exists] at hmap
    rw [parameter_eq_result hmap, parameter_eq_result (h ▸ hmap)]
    exact .pure trivial

/-- What is compared of two fillings of one value: the text, the keys and the counter. -/
def SamePart (x y : Text × Entries × ℤ) : Prop :=
  x.1 = y.1 ∧ x.2.1.keys = y.2.1.keys ∧ x.2.2 = y.2.2

/-- Values of the same kind are filled in alike. -/
theorem fillValue_agree (hinline : mode.inlines = Value.isInline true)
    {parameters parameters' : Entries} (counter : ℤ) {v w : Value}
    (hkeys : parameters.keys = parameters'.keys) (h : v.kind = w.kind) :
    Logged.Agree SamePart (mode.fillValue parameters counter v)
      (mode.fillValue parameters' counter w) := by
  unfold fillValue
  rw [inlineText?_congr hinline h]
  cases mode.inlineText? w with
  | some shown =>
    refine (Logged.Agree.refl _).bind ?_
    rintro t _ rfl
    exact .pure ⟨rfl, hkeys, rfl⟩
  | none =>
    refine (parameter_agree h).bind fun parameter parameter' _ => ?_
    refine (Logged.Agree.refl _).bind ?_
    rintro t _ rfl
    exact .pure ⟨rfl, Entries.keys_put_congr _ _ _ hkeys, rfl⟩

/-- What is compared of two fillings: the parts as segments, the keys and the counter. -/
structure SameFilling (x y : Filling) : Prop where
  /-- The parts are the same. -/
  parts : List.Forall₂ Value.SameSegment x.parts y.parts
  /-- The keys of the parameters are the same. -/
  keys_eq : x.parameters.keys = y.parameters.keys
  /-- The counters are the same. -/
  counter_eq : x.counter = y.counter

/-- Alike gaps are filled in alike. -/
theorem fillGaps_agree (hinline : mode.inlines = Value.isInline true)
    {parameters parameters' : Entries} (counter : ℤ) {gaps gaps' : List Gap}
    (hkeys : parameters.keys = parameters'.keys) (h : List.Forall₂ Gap.Alike gaps gaps') :
    Logged.Agree SameFilling (mode.fillGaps parameters counter gaps)
      (mode.fillGaps parameters' counter gaps') := by
  induction h generalizing parameters parameters' counter with
  | nil => exact .pure ⟨.nil, hkeys, rfl⟩
  | cons hgap _ ih =>
    refine (fillValue_agree hinline counter hkeys hgap.kind_eq).bind ?_
    rintro ⟨t, filled, counter⟩ ⟨_, filled', _⟩ ⟨rfl, hfilled, rfl⟩
    refine (ih counter hfilled).bind fun x y hxy => ?_
    exact .pure ⟨.cons (.inl rfl) (.cons hgap.after hxy.parts), hxy.keys_eq, hxy.counter_eq⟩

end FillMode

/-- The same parts join to the same text, or are refused alike. -/
theorem joinParts_congr {parts parts' : List Value} (position : ℕ)
    (h : List.Forall₂ Value.SameSegment parts parts') :
    joinParts position parts = joinParts position parts' := by
  induction h generalizing position with
  | nil => rfl
  | @cons part part' parts parts' hpart _ ih =>
    rw [joinParts, joinParts, hpart.text?_eq, ih]
    obtain rfl | ⟨t, -, ht⟩ := hpart
    · rfl
    · rw [ht]

/-- What is compared of two interpolations: the text, the keys and the counter. -/
structure SameInterpolation (x y : Interpolation) : Prop where
  /-- The texts are the same. -/
  text_eq : x.text = y.text
  /-- The keys of the parameters are the same. -/
  keys_eq : x.parameters.keys = y.parameters.keys
  /-- The counters are the same. -/
  counter_eq : x.counter = y.counter

/-- Alike templates are filled in alike. -/
theorem interpolate_agree {mode : FillMode} (hinline : mode.inlines = Value.isInline true)
    {template template' : Template} {parameters parameters' : Entries} (counter : ℤ)
    (hkeys : parameters.keys = parameters'.keys) (h : template.Alike template') :
    Logged.Agree SameInterpolation (interpolate mode template parameters counter)
      (interpolate mode template' parameters' counter) := by
  refine (FillMode.fillGaps_agree hinline counter hkeys h.gaps).bind fun x y hxy => ?_
  rw [h.gaps.length_eq, hxy.counter_eq, joinParts_congr 0 (.cons h.first hxy.parts)]
  refine (Logged.Agree.refl _).bind fun _ _ _ => (Logged.Agree.refl _).bind ?_
  rintro t _ rfl
  exact .pure ⟨rfl, hxy.keys_eq, rfl⟩

/-! ## Queries -/

namespace Query

/-- Parts with the same keys are accepted or refused alike. -/
theorem ofParts_agree (clauses : Clauses) {parameters parameters' : Entries} (counter : ℤ)
    (hkeys : parameters.keys = parameters'.keys) :
    Logged.Agree QueryOf.Alike (.ofExcept (ofParts clauses parameters counter))
      (.ofExcept (ofParts clauses parameters' counter)) := by
  unfold ofParts
  rw [Entries.isDense_congr counter hkeys, hkeys]
  split
  · exact .pure ⟨rfl, rfl, hkeys⟩
  · split <;> exact .error _ _

/-- Alike templates start alike queries. -/
theorem start_agree {mode : FillMode} (hinline : mode.inlines = Value.isInline true)
    {template template' : Template} (h : template.Alike template') :
    Logged.Agree QueryOf.Alike (start mode template) (start mode template') := by
  refine (interpolate_agree hinline 0 rfl h).bind fun x y hxy => ?_
  rw [hxy.text_eq, hxy.counter_eq]
  exact (Logged.Agree.refl _).bind fun _ _ _ => ofParts_agree _ _ hxy.keys_eq

/-- Alike templates extend alike queries to alike queries. -/
theorem extend_agree {mode : FillMode} (hinline : mode.inlines = Value.isInline true) {q r : Query}
    {template template' : Template} (hqr : QueryOf.Alike q r) (h : template.Alike template') :
    Logged.Agree QueryOf.Alike (extend mode q template) (extend mode r template') := by
  unfold extend
  rw [hqr.counter_eq, hqr.clauses_eq]
  refine (interpolate_agree hinline _ hqr.keys_eq h).bind fun x y hxy => ?_
  rw [hxy.text_eq, hxy.counter_eq]
  exact (Logged.Agree.refl _).bind fun _ _ _ => ofParts_agree _ _ hxy.keys_eq

end Query

/-! ## Runs -/

/-- Computations that agree on alike templates do so on templates that are made alike, or are not
made for the same reason. They leave the same settings behind. -/
theorem Ambient.onTemplate_agree {α : Type} (a : Ambient) {r : α → α → Prop}
    {made made' : Except Failure Template} {f f' : FillMode → Template → Logged α}
    (hmade : Logged.OutcomesAgree Template.Alike made made')
    (hf : ∀ strict template template', template.Alike template' →
      Logged.Agree r (f (Query.fillMode strict) template)
        (f' (Query.fillMode strict) template')) :
    Logged.Agree r (a.onTemplate made f).1 (a.onTemplate made' f').1 ∧
      (a.onTemplate made f).2 = (a.onTemplate made' f').2 := by
  cases made <;> cases made' <;> simp only [Logged.OutcomesAgree] at hmade
  case error.error e e' =>
    rw [hmade]
    exact ⟨.error r e', rfl⟩
  case ok.ok template template' =>
    refine ⟨(Logged.Agree.refl _).bind ?_, rfl⟩
    rintro settings _ rfl
    exact hf _ _ _ hmade

/-- Two calls make alike templates, or fail to make one for the same reason. -/
def Call.Alike {α : Type} (on : Option α) (call call' : Call) : Prop :=
  Logged.OutcomesAgree Template.Alike (call.template on) (call'.template on)

/-- Alike calls on alike queries, or on none, agree and leave the same settings behind. -/
theorem Call.run_agree (a : Ambient) {call call' : Call} {on on' : Option Query}
    (hon : Option.Rel QueryOf.Alike on on') (h : call.Alike on call') :
    Logged.Agree QueryOf.Alike (call.run a on).1 (call'.run a on').1 ∧
      (call.run a on).2 = (call'.run a on').2 := by
  cases hon with
  | none => exact a.onTemplate_agree h fun _ _ _ => Query.start_agree rfl
  | some hquery => exact a.onTemplate_agree h fun _ _ _ => Query.extend_agree rfl hquery

/-- A step of a run: a call on the query of an earlier step, or on none. -/
structure Move where
  /-- The position of the earlier step. -/
  on : Option ℕ
  /-- The call. -/
  call : Call

/-- What the steps of a run have come to. A step whose earlier step made no query is left out. -/
abbrev Session := List (Option (Logged Query))

namespace Session

/-- The query that a step has made. -/
def query? (done : Session) (position : ℕ) : Option Query := do
  let step ← done[position]?
  (← step).outcome.toOption

/-- What a step comes to after earlier ones, and the ambient settings after it. -/
def step (a : Ambient) (done : Session) (move : Move) : Option (Logged Query) × Ambient :=
  match move.on with
  | none =>
    let (made, a) := move.call.run a none
    (some made, a)
  | some position =>
    match done.query? position with
    | some q =>
      let (made, a) := move.call.run a (some q)
      (some made, a)
    | none => (none, a)

/-- What the steps of a run come to, from ambient settings and earlier steps on. -/
def run (a : Ambient) (done : Session) : List Move → Session
  | [] => done
  | move :: moves =>
    let (made, a) := done.step a move
    run a (done ++ [made]) moves

/-- Two sessions agree step by step. -/
def Alike : Session → Session → Prop :=
  List.Forall₂ (Option.Rel (Logged.Agree QueryOf.Alike))

/-- Sessions that agree have made alike queries in the same places. -/
theorem Alike.query? {done done' : Session} (h : done.Alike done') (position : ℕ) :
    Option.Rel QueryOf.Alike (done.query? position) (done'.query? position) := by
  induction h generalizing position with
  | nil => exact .none
  | cons hstep _ ih =>
    cases position with
    | succ position => exact ih position
    | zero =>
      cases hstep with
      | none => exact .none
      | @some made made' hmade =>
        obtain ⟨events, outcome⟩ := made
        obtain ⟨events', outcome'⟩ := made'
        obtain ⟨-, houtcomes⟩ := hmade
        cases outcome <;> cases outcome' <;> simp only [Logged.OutcomesAgree] at houtcomes
        · exact .none
        · exact .some houtcomes

end Session

/-- Two steps make alike calls in the same place. -/
structure Move.Alike (move move' : Move) : Prop where
  /-- Both go on from the same earlier step. -/
  on_eq : move.on = move'.on
  /-- The calls are alike. -/
  call : move.call.Alike move.on move'.call

namespace Session

/-- Alike steps of sessions that agree come to the same, and leave the same settings behind. -/
theorem step_agree (a : Ambient) {done done' : Session} {move move' : Move}
    (hdone : done.Alike done') (h : move.Alike move') :
    Option.Rel (Logged.Agree QueryOf.Alike) (done.step a move).1 (done'.step a move').1 ∧
      (done.step a move).2 = (done'.step a move').2 := by
  have hcall := h.call
  unfold step
  rw [← h.on_eq]
  cases hon : move.on with
  | none =>
    rw [hon] at hcall
    obtain ⟨hmade, hambient⟩ := Call.run_agree a .none hcall
    exact ⟨.some hmade, hambient⟩
  | some position =>
    rw [hon] at hcall
    have hquery := hdone.query? position
    dsimp only
    revert hquery
    cases done.query? position <;> cases done'.query? position <;> rintro ⟨hquery⟩
    · exact ⟨.none, rfl⟩
    · obtain ⟨hmade, hambient⟩ := Call.run_agree a (.some hquery) hcall
      exact ⟨.some hmade, hambient⟩

/-- Alike steps take sessions that agree to sessions that agree. -/
theorem run_agree (a : Ambient) {done done' : Session} {moves moves' : List Move}
    (hdone : done.Alike done') (h : List.Forall₂ Move.Alike moves moves') :
    (done.run a moves).Alike (done'.run a moves') := by
  induction h generalizing a done done' with
  | nil => exact hdone
  | @cons move move' moves moves' hmove _ ih =>
    obtain ⟨hmade, hambient⟩ := step_agree a hdone hmove
    rw [run, run]
    dsimp only
    rw [hambient]
    exact ih _ (List.rel_append hdone (.cons hmade .nil))

end Session

/-- Take two runs under the same settings, whose steps go on from the same earlier steps by
templates of the same segments, with values of the same kind gap by gap. Step by step, both report
the same events, and both fail in the same way or make queries with the same clauses, counter, keys
and text. Only the values of the parameters may differ. -/
theorem Session.agree_of_alike (a : Ambient) {moves moves' : List Move}
    (h : List.Forall₂ Move.Alike moves moves') :
    List.Forall₂
      (Option.Rel (Logged.Agree fun q r : Query => QueryOf.Alike q r ∧ q.text = r.text))
      (Session.run a [] moves) (Session.run a [] moves') := by
  have hruns : (Session.run a [] moves).Alike (Session.run a [] moves') :=
    Session.run_agree a .nil h
  refine hruns.imp fun made made' hmade => ?_
  cases hmade with
  | none => exact .none
  | some hagree => exact .some (hagree.imp fun q r hqr => ⟨hqr, hqr.text_eq⟩)

/-- A number and a hostile text, and then two parameter objects of one key each, lead to runs that
agree; so do two parameter objects that are both ambiguous. -/
theorem Session.agree_of_alike_hostile :
    let move (on : Option ℕ) (before : String) (value : Value) : Move :=
      ⟨on, ⟨.template ⟨.text before.toList, [⟨value, .text []⟩]⟩, {}⟩⟩
    let moves (first : Value) (second third : Value) : List Move :=
      [move none "SELECT * FROM t WHERE a = " first, move (some 0) "OR b = " second,
        move (some 1) "LIMIT " (.map [(.text ['m'], second), (.text ['n'], third)])]
    let number := moves (.int 1) (.map [(.text ['k'], .null)]) (.bool true)
    let hostile := moves (.text "' OR ''='".toList) (.map [(.text ['k'], .raw ['0'])]) .null
    List.Forall₂ Move.Alike number hostile ∧
      List.Forall₂
        (Option.Rel (Logged.Agree fun q r : Query => QueryOf.Alike q r ∧ q.text = r.text))
        (Session.run ⟨[], none, some {}⟩ [] number)
        (Session.run ⟨[], none, some {}⟩ [] hostile) := by
  intro move moves number hostile
  have hmove : ∀ on before {v w : Value}, v.kind = w.kind →
      (move on before v).Alike (move on before w) := by
    intro on before v w h
    refine ⟨rfl, ?_⟩
    cases on <;> exact ⟨.inl rfl, .cons ⟨h, .inl rfl⟩ .nil⟩
  have halike : List.Forall₂ Move.Alike number hostile :=
    .cons (hmove _ _ rfl) (.cons (hmove _ _ rfl) (.cons (hmove _ _ rfl) .nil))
  exact ⟨halike, Session.agree_of_alike _ halike⟩

end SqlComposer
