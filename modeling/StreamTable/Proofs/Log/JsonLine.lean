/-
A JSON line tells an event, and nothing else.  Its text is ASCII on one line, whatever characters
the message, the logger, the attributes and the exception have, and what is read from it is an
object that has each thing to be told of the event under one key, as it is in the event.

What is told is `Told`; the fields that are written are these, under keys that differ
(`mem_fields`, `nodup_fields`).  The rest is that documents survive their text.
-/
import StreamTable.Log.Line
import StreamTable.Proofs.Json.Ascii
import StreamTable.Proofs.Json.Writable
import StreamTable.Proofs.Log.Moment
import StreamTable.Proofs.Value.Entries

namespace StreamTable
namespace Log
namespace Event

open Json (Faithful Printed)

/-! ## What is told -/

/-- What a line tells of an event with its message, and the time if there is one to be told. -/
inductive Told (e : Event) (message : String) (time : Option DateTime) : String → Value → Prop
  | level : Told e message time "level" (.str e.level.name)
  | logger : Told e message time "logger" (.str e.logger)
  | message : Told e message time "message" (.str message)
  | timestamp {t : DateTime} (h : time = some t) : Told e message time "timestamp" (.str t.text)
  | context {name : String} {v : Value} (hname : name ∈ contextNames)
      (h : Value.field? e.attributes name = some v) (hv : v ≠ .null) : Told e message time name v
  | exception {text : String} (h : e.exception = some text) :
      Told e message time "exception" (.str text)

variable {e : Event} {message : String} {time : Option DateTime}

theorem attribute?_eq_some {name : String} {v : Value} :
    e.attribute? name = some v ↔ Value.field? e.attributes name = some v ∧ v ≠ .null := by
  have hnull : v.isNull = true ↔ v = .null := by cases v <;> simp [Value.isNull]
  rw [attribute?, Option.filter_eq_some_iff]
  simp [← hnull]

theorem mem_attributesOf {names : List String} {name : String} {v : Value} :
    (name, v) ∈ e.attributesOf names ↔ name ∈ names ∧ e.attribute? name = some v := by
  rw [attributesOf, List.mem_filterMap]
  constructor
  · rintro ⟨name', hname, h⟩
    obtain ⟨v', hv, heq⟩ := Option.map_eq_some_iff.mp h
    cases heq
    exact ⟨hname, hv⟩
  · rintro ⟨hname, hv⟩
    exact ⟨name, hname, Option.map_eq_some_iff.mpr ⟨v, hv, rfl⟩⟩

theorem mem_fields {key : String} {v : Value} :
    (key, v) ∈ e.fields message time ↔ Told e message time key v := by
  simp only [fields, List.mem_append, List.mem_cons, List.not_mem_nil, or_false, Prod.mk.injEq,
    Option.mem_toList, Option.map_eq_some_iff, mem_attributesOf,
    attribute?_eq_some]
  constructor
  · rintro ((((⟨rfl, rfl⟩ | ⟨rfl, rfl⟩ | ⟨rfl, rfl⟩) | ⟨t, ht, rfl, rfl⟩) | ⟨hname, h, hv⟩) |
      ⟨text, htext, rfl, rfl⟩)
    · exact .level
    · exact .logger
    · exact .message
    · exact .timestamp ht
    · exact .context hname h hv
    · exact .exception htext
  · intro h
    cases h with
    | level => simp
    | logger => simp
    | message => simp
    | timestamp ht => simp [ht]
    | context hname h hv => exact .inl (.inr ⟨hname, h, hv⟩)
    | exception htext => simp [htext]

/-! ## Keys -/

/-- The attributes come under some of the names that are asked for, in their order. -/
theorem keys_attributesOf (e : Event) (names : List String) :
    ((e.attributesOf names).map Prod.fst).Sublist names := by
  induction names with
  | nil => exact List.Sublist.refl _
  | cons name names ih =>
    rw [attributesOf, List.filterMap_cons]
    cases e.attribute? name with
    | none => exact ih.cons name
    | some v => exact ih.cons_cons name

/-- All the keys that a line may have. -/
def lineKeys : List String :=
  ["level", "logger", "message"] ++ ["timestamp"] ++ contextNames ++ ["exception"]

theorem keys_fields : ((e.fields message time).map Prod.fst).Sublist lineKeys := by
  have htime : (((time.map fun t => ("timestamp", Value.str t.text)).toList).map
      Prod.fst).Sublist ["timestamp"] := by
    cases time with
    | none => exact List.nil_sublist _
    | some t => exact List.Sublist.refl _
  have hexception : (((e.exception.map fun text => ("exception", Value.str text)).toList).map
      Prod.fst).Sublist ["exception"] := by
    cases e.exception with
    | none => exact List.nil_sublist _
    | some text => exact List.Sublist.refl _
  rw [fields, List.map_append, List.map_append, List.map_append]
  exact (((List.Sublist.refl _).append htime).append (keys_attributesOf e contextNames)).append
    hexception

theorem nodup_fields : ((e.fields message time).map Prod.fst).Nodup :=
  keys_fields.nodup (by decide)

/-! ## Lines -/

/-- The values of the attributes that a line tells are documents that their text tells exactly. -/
def TellsContext (e : Event) : Prop :=
  ∀ name ∈ contextNames, ∀ v, Value.field? e.attributes name = some v → v ≠ .null → Faithful v

theorem Told.faithful {key : String} {v : Value} (h : Told e message time key v)
    (hcontext : e.TellsContext) : Faithful v := by
  cases h with
  | context hname h hv => exact hcontext _ hname v h hv
  | _ => exact .str _

theorem fields_faithful (hcontext : e.TellsContext) :
    Faithful (Value.ofFields (e.fields message time)) := by
  refine .fields _ nodup_fields ?_
  rintro ⟨key, v⟩ h
  exact (mem_fields.mp h).faithful hcontext

theorem timeAt_eq {timed : Bool} {seconds : Double}
    (h : timed = true → (momentOf? seconds).isSome) :
    timeAt timed seconds = .ok (if timed then momentOf? seconds else none) := by
  cases timed with
  | false => rfl
  | true =>
    obtain ⟨t, ht⟩ := Option.isSome_iff_exists.mp (h rfl)
    rw [timeAt, if_pos rfl, if_pos rfl, ht]

section Document

variable {timed : Bool} {seconds : Double} {d : Value}

/-- A line is its document as text. -/
theorem jsonLineAt_of_text {line : String} (h : e.documentAt timed seconds = .ok d)
    (hfault : Json.fault? d = none) (hline : Json.printAt? .line .text 0 d = some line) :
    e.jsonLineAt timed seconds = .ok line := by
  rw [jsonLineAt, h]
  dsimp only [bind, Except.bind]
  rw [hfault, hline]
  rfl

/-- A fault of its document stands in the way of a line. -/
theorem jsonLineAt_of_fault {fault : DataFault} (h : e.documentAt timed seconds = .ok d)
    (hfault : Json.fault? d = some fault) : e.jsonLineAt timed seconds = .error fault := by
  rw [jsonLineAt, h]
  dsimp only [bind, Except.bind]
  rw [hfault]
  rfl

end Document

/-- What is read from the line of an event. -/
theorem jsonLineAt_reads {timed : Bool} {seconds : Double} (hmessage : e.message = .ok message)
    (htime : timed = true → (momentOf? seconds).isSome) (hcontext : e.TellsContext) :
    ∃ line, e.jsonLineAt timed seconds = .ok line ∧ Printed line.toList ∧
      Json.read line = .ok (Value.ofFields
        (e.fields message (if timed then momentOf? seconds else none))) := by
  have hdocument : e.documentAt timed seconds =
      .ok (Value.ofFields (e.fields message (if timed then momentOf? seconds else none))) := by
    rw [documentAt, hmessage, timeAt_eq htime]
    rfl
  have hfaithful : Faithful (Value.ofFields
      (e.fields message (if timed then momentOf? seconds else none))) := fields_faithful hcontext
  obtain ⟨text, htext⟩ := hfaithful.tells
  have hprinted := Json.printAt?_fallback .text 0 _ (htext.printed 0)
  refine ⟨text, jsonLineAt_of_text hdocument hfaithful.fault? hprinted,
    Json.printed_printAt? Json.Layout.line_inline 0 _ hprinted, ?_⟩
  rw [Json.read, htext.readAll]

/-- A line is one line of ASCII, and what is read from it is what is to be told of the event, each
under its own key.  The time that it tells, if the calendar reaches it, is that of the event to less
than a microsecond. -/
theorem line_tells_event (timed : Bool) (seconds : Double) (hmessage : e.message = .ok message)
    (htime : timed = true → OnCalendar seconds) (hcontext : e.TellsContext) :
    ∃ line fields, e.jsonLineAt timed seconds = .ok line ∧ Printed line.toList ∧
      Json.read line = .ok (Value.ofFields fields) ∧ (fields.map Prod.fst).Nodup ∧
      (∀ key v, (key, v) ∈ fields ↔
        Told e message (if timed then momentOf? seconds else none) key v) ∧
      (timed = true → ∃ t, momentOf? seconds = some t ∧ Dates seconds t) := by
  have hmoment : timed = true → (momentOf? seconds).isSome :=
    fun h => isSome_momentOf?.mpr (htime h)
  obtain ⟨line, hline, hprinted, hread⟩ := jsonLineAt_reads hmessage hmoment hcontext
  refine ⟨line, _, hline, hprinted, hread, nodup_fields, fun _ _ => mem_fields, fun h => ?_⟩
  obtain ⟨t, ht⟩ := Option.isSome_iff_exists.mp (hmoment h)
  exact ⟨t, ht, dates_of_momentOf? ht⟩

/-- An event that tries to pass for another one: with a new line and the ends of a string and of an
object in its message, and characters outside ASCII in its exception. -/
def forger : Event where
  logger := "sink\nlog"
  level := .custom "NOTICE" 25
  template := "%s done\"\x7d\n\x7b\"level\": \"ERROR\""
  arguments := [.str "m-1"]
  created := 0
  attributes := [Value.entry "table" .null, Value.entry "message_id" (.str "m\r\n1"),
    Value.entry "other" (.float .zero),
    Value.entry "attempt" (.list [.int (-3), .null,
      Value.ofFields [("a", .bool true), ("", .str "\x7f")]])]
  exception := some "ValueError: Öl 😀"

theorem forger_told :
    ∃ line fields, forger.jsonLineAt true ⟨0x41d954fc4007e6b4⟩ = .ok line ∧ Printed line.toList ∧
      Json.read line = .ok (Value.ofFields fields) ∧ (fields.map Prod.fst).Nodup ∧
      (∀ key v, (key, v) ∈ fields ↔ Told forger "m-1 done\"\x7d\n\x7b\"level\": \"ERROR\""
        (momentOf? ⟨0x41d954fc4007e6b4⟩) key v) ∧
      ∃ t, momentOf? ⟨0x41d954fc4007e6b4⟩ = some t ∧ Dates ⟨0x41d954fc4007e6b4⟩ t := by
  have hmessage : forger.message = .ok "m-1 done\"\x7d\n\x7b\"level\": \"ERROR\"" := rfl
  have hcontext : forger.TellsContext := by
    intro name hname v h hv
    simp only [contextNames, List.mem_cons, List.not_mem_nil, or_false] at hname
    obtain rfl | rfl | rfl | rfl | rfl := hname <;>
      simp only [forger, Value.field?_entry, Value.field?_nil, String.reduceEq, ↓reduceIte,
        Option.some.injEq, reduceCtorEq] at h <;> subst h
    · exact absurd rfl hv
    · exact .str _
    · refine .list _ ?_
      simp only [List.forall_mem_cons]
      refine ⟨.int _ (by decide +kernel), .null, .fields _ (by decide) ?_, nofun⟩
      simp only [List.forall_mem_cons]
      exact ⟨.bool _, .str _, nofun⟩
  obtain ⟨line, fields, hline, hprinted, hread, hnodup, htold, htime⟩ :=
    line_tells_event true ⟨0x41d954fc4007e6b4⟩ hmessage (fun _ => by decide +kernel) hcontext
  exact ⟨line, fields, hline, hprinted, hread, hnodup, htold, htime rfl⟩

/-- An integer with too many digits has no text, and a line that is to tell it is refused. -/
theorem long_attempt_refused {n : Int} (hn : Json.isTooLong n = true) (seconds : Double)
    (hmessage : e.message = .ok message)
    (hattributes : e.attributes = [Value.entry "attempt" (.int n)]) :
    e.jsonLineAt false seconds = .error .wrongValue := by
  have hdocument : e.documentAt false seconds = .ok (Value.ofFields (e.fields message none)) := by
    rw [documentAt, hmessage]
    rfl
  have htold : e.attributesOf contextNames = [("attempt", .int n)] := by
    simp [attributesOf, attribute?, contextNames, hattributes, Value.field?_entry,
      Value.field?_nil, Value.isNull]
  have hfault : Json.fault? (Value.ofFields (e.fields message none)) = some .wrongValue := by
    simp [Value.ofFields, fields, htold, Json.fault?, Json.entriesFault?, Json.keyFault?,
      Json.keyText?, hn]
  exact jsonLineAt_of_fault hdocument hfault

theorem attempt_of_4301_digits_refused :
    let e : Event := { forger with template := "m", arguments := [], attributes :=
      [Value.entry "attempt" (.int (Nat.pow 10 4300))] }
    e.message = .ok "m" ∧ e.jsonLineAt false .zero = .error .wrongValue :=
  ⟨rfl, long_attempt_refused (by decide +kernel) .zero rfl rfl⟩

end Event
end Log
end StreamTable
