import SqlComposer.Log.Setup

/-!
# What is written of events

Every event of the library is fit to be written: none of its fields repeats an argument of a call,
and all of them have a JSON form. So what is written of events are the JSON objects of those that
pass the threshold, in their order.
-/

namespace SqlComposer

/-- The JSON object of an event. -/
def Event.json (e : Event) : Json :=
  e.record.json.toOption.getD .null

/-- Texts have the JSON forms of texts. -/
theorem Json.ofItems_map_text (style : Json.Style) (ts : List Text) :
    Json.ofItems style (ts.map .text) = .ok (ts.map .string) := by
  induction ts with
  | nil => rfl
  | cons t ts ih =>
    rw [List.map_cons, List.map_cons, Json.ofItems, ih]
    rfl

/-- Dropped keys are written with the key that is kept, if there is one. -/
theorem Event.json_truncated (kept : Option Text) (dropped : List Text) :
    (Event.truncated kept dropped).record.json = .ok (.object
      [("kept_key".toList, (kept.map Json.string).getD .null),
        ("dropped_keys".toList, .array (dropped.map .string)),
        ("event".toList, .string "interpolation.param_object_truncated".toList),
        ("level".toList, .string "warning".toList),
        ("logger".toList, .string "literal_sql.core.interpolation".toList)]) := by
  let shown : Value := (kept.map .text).getD .null
  let entries (keys : Value) : Entries :=
    [Event.field "kept_key" shown, Event.field "dropped_keys" keys,
      Event.field "event" (.text "interpolation.param_object_truncated".toList),
      Event.field "level" (.text "warning".toList),
      Event.field "logger" (.text "literal_sql.core.interpolation".toList)]
  have hshown : Json.ofValue .quoted shown = .ok ((kept.map Json.string).getD .null) := by
    cases kept <;> rfl
  have hdropped : Json.ofValue .quoted (.list (dropped.map .text)) =
      .ok (.array (dropped.map .string)) := by
    rw [Json.ofValue, Json.ofItems_map_text]
    rfl
  have hjson : (Event.truncated kept dropped).record.json = (do
      let members ← (Json.ofEntries .quoted (entries (.list (dropped.map .text)))).mapError .json
      return .object members) := by
    cases kept <;> rfl
  rw [hjson]
  simp only [entries, Event.field, Json.ofEntries, hshown, hdropped]
  rfl

/-- Every event has a JSON object. -/
theorem Event.record_json (e : Event) : e.record.json = .ok e.json := by
  have hexists : ∃ json, e.record.json = .ok json := by
    cases e with
    | truncated kept dropped => exact ⟨_, json_truncated kept dropped⟩
    | _ => exact ⟨_, rfl⟩
  obtain ⟨json, hjson⟩ := hexists
  rw [Event.json, hjson]
  rfl

/-- Events come from loggers of the library, and none of their fields repeats an argument. -/
theorem Event.record_isFit (e : Event) : e.record.isOwn = true ∧ e.record.reported = .ok () := by
  cases e <;> exact ⟨rfl, rfl⟩

/-- An event is written when its level passes. -/
theorem LogSetup.writtenFor_record (setup : LogSetup) (e : Event) :
    setup.writtenFor e.record =
      .ok (if Threshold.passes setup.threshold e.level then some e.json else none) := by
  obtain ⟨hown, hreported⟩ := e.record_isFit
  have hlevel : e.record.level = e.level := rfl
  rw [writtenFor, thresholdFor, hreported, hown, if_pos rfl, e.record_json, hlevel]
  cases Threshold.passes setup.threshold e.level <;> rfl

/-- What is written of events are the JSON objects of those that pass, in order. -/
theorem LogSetup.written_records (setup : LogSetup) (events : List Event) :
    setup.written (events.map Event.record) =
      .ok ((events.filter fun e => Threshold.passes setup.threshold e.level).map Event.json) := by
  induction events with
  | nil => rfl
  | cons e events ih =>
    rw [List.map_cons, written, setup.writtenFor_record e, ih, List.filter_cons]
    cases Threshold.passes setup.threshold e.level <;> rfl

end SqlComposer
