/-
The field that plain values are stored in.  A schema that is made for plain values is a record of one
field, whose name is the one it was made for; and all that a loop makes in a run, it makes for the
name that its settings come to.  So the name that the settings are told by is the one that each
such record carries.

A property of the active schema that looking at descriptors, asking for records of plain values and
decoding keep is `Stable`, and holds throughout a run.
-/
import StreamTable.Proofs.Avro.Regular
import StreamTable.Proofs.Record.PlainValue
import StreamTable.Proofs.Record.Recomputed
import StreamTable.Proofs.Sink.Adoption
import StreamTable.Proofs.Sink.Survival

namespace StreamTable

open StreamTable.Action

/-! ## Records of one field -/

namespace PlainValue

open Avro Avro.Schema

variable {f : String} {s : Avro.Schema}

/-- Whether a schema is the record that holds plain values in the field of a name. -/
def Wraps (f : String) (s : Avro.Schema) : Prop :=
  ∃ type, s = .record false recordName [(⟨.str f, []⟩, type)] []

theorem fieldsReadFrom_single {fields : List Field} {type : Value} {scope : Scope}
    (h : FieldsReadFrom fields [Value.ofFields [("name", .str f), ("type", type)]] scope) :
    ∃ t, fields = [(⟨.str f, []⟩, t)] := by
  cases fields with
  | nil => cases h
  | cons field rest =>
    obtain ⟨⟨name, attrs⟩, t⟩ := field
    obtain ⟨es, v, ys, hes, hname, hattrs, -, -, hrest⟩ := h
    cases hes
    cases rest with
    | nil =>
      have hname : name = .str f := by
        simpa [Value.field?_cons, Value.isText, eq_comm] using hname
      have hattrs : attrs = [] := by
        simpa [fieldAttributesOf, Value.isText] using hattrs
      exact ⟨t, by rw [hname, hattrs]⟩
    | cons field' rest =>
      obtain ⟨es, v, ys, hcons, -⟩ := hrest
      cases hcons

theorem readFrom_wrappingNode {type : Value} (h : s.ReadFrom (wrappingNode type f) .top) :
    Wraps f s := by
  have htag : s.tag = .record false := by
    rw [h.tag_eq, wrappingNode, Value.ofFields, tagOf]
    simp [Value.field?_cons, Value.isText, Value.asStr?, Tag.ofKind]
  cases s with
  | record isError name fields attrs =>
    obtain ⟨es, inner, hes, hdescribes, hname, hfields⟩ := h
    cases hes
    cases htag
    have hattrs : attrs = [] := by
      rw [hdescribes.attributes]
      simp [attributesOf, reservedKeys, Value.field?_cons, Value.field?_nil, Value.isText]
    have hfull : name = recordName := by
      simp [Scope.top, fullNameOf, nameWithin, Value.field?_cons, Value.field?_nil, Value.isText,
        Value.isTruthy, recordName] at hname
      exact hname.2.symm
    have hnodes : FieldsReadFrom fields
        [Value.ofFields [("name", .str f), ("type", type)]] inner := by
      simpa [fieldNodes, Value.field?_cons, Value.isText] using hfields
    obtain ⟨t, rfl⟩ := fieldsReadFrom_single hnodes
    exact ⟨t, by rw [hattrs, hfull]⟩
  | _ => cases htag

/-- Whatever the type is, what is read from the node that wraps it is a record of the one field. -/
theorem wraps_of_parse {type : Value} (h : parse (wrappingNode type f) = .ok s) : Wraps f s := by
  rw [parse, parseTop_wrappingNode] at h
  exact readFrom_wrappingNode (parseOne_yields (yields_of_run' h))

/-- The descriptor that a plain value suggests makes the record that wraps it active. -/
theorem wraps_of_descriptor {v : Value} {text : String} (h : descriptor v f = .ok text) :
    ∃ a s, ActiveSchema.none.activate (some text) = .ok a ∧ a.schema = some s ∧ Wraps f s := by
  obtain ⟨n, hn, -⟩ := Except.of_bind_ok h
  obtain ⟨t, ht⟩ := node_isOk_iff.mp ⟨n, hn⟩
  obtain ⟨text', htext', hload⟩ := ht.descriptor f
  obtain rfl : text' = text := Except.ok.inj (htext'.symm.trans h)
  have hactivate := (ActiveSchema.activate_of_load hload).trans
    (takeUp_wrappingNode .none t f (some text'))
  exact ⟨_, t.record f, hactivate, rfl, t.schema, rfl⟩

end PlainValue

/-! ## The records that are kept -/

namespace ActiveSchema

variable {a : ActiveSchema} {f : String}

/-- The records that were made for plain values were all made for one field, and are what would be
made anew. -/
structure Dedicated (f : String) (a : ActiveSchema) : Prop where
  genuine : a.Genuine
  only : ∀ e ∈ a.wrapped, e.1 = f

theorem none_dedicated (f : String) : none.Dedicated f := ⟨none_genuine, List.forall_mem_nil _⟩

theorem observe_wrapped (a : ActiveSchema) (d : Option String) :
    (a.observe d).2.wrapped = a.wrapped ∨ (a.observe d).2.wrapped = [] := by
  cases hc : a.isChanged d with
  | false => exact .inl (by rw [observe_of_same hc])
  | true =>
    cases ha : a.activate d with
    | error fault => exact .inl (by rw [observe_of_refused hc ha])
    | ok a' =>
      obtain ⟨node, schema, projection, -, rfl⟩ := activate_ok ha
      exact .inr (by rw [observe_of_activate hc ha])

theorem dedicated_stable (f : String) : Stable f (Dedicated f) where
  observe {a} h d := by
    refine ⟨observe_genuine h.genuine d, ?_⟩
    obtain hkept | hnone := observe_wrapped a d
    · rw [hkept]
      exact h.only
    · rw [hnone]
      exact List.forall_mem_nil _
  storage {a} h := by
    refine ⟨storage_genuine h.genuine f, ?_⟩
    obtain hkept | ⟨s, -, -, -, hmade⟩ := storage_kept a f
    · rw [hkept]
      exact h.only
    · rw [hmade]
      exact List.forall_mem_cons.mpr ⟨rfl, h.only⟩
  projection h _ := ⟨(genuine_stable f).projection h.genuine _, h.only⟩

theorem wrapping_wraps {s : Avro.Schema} (h : a.wrapping f = .ok s) : PlainValue.Wraps f s :=
  PlainValue.wraps_of_parse (parse_of_schemaOf h)

theorem Dedicated.wraps (h : a.Dedicated f) {e : String × Avro.Schema} (he : e ∈ a.wrapped) :
    PlainValue.Wraps f e.2 := by
  have hwrapping := h.genuine.wrapped e he
  rw [h.only e he] at hwrapping
  exact wrapping_wraps hwrapping

/-- The record that plain values are stored in is the active schema or wraps it. -/
theorem storage_wraps (h : a.Genuine) {x : Avro.Schema × Binding}
    (hx : (a.storage f).1 = .ok x) (hbare : x.2.wrappedIn ≠ .none) : PlainValue.Wraps f x.1 := by
  rw [storage_eq h] at hx
  cases hs : a.storedIn (a.wrapsIn f .primitive) with
  | error fault =>
    rw [hs] at hx
    cases hx
  | ok s =>
    rw [hs] at hx
    obtain rfl := Except.ok.inj hx
    have hwraps : a.wrapsIn f .primitive = some f := by
      unfold wrapsIn at hbare ⊢
      split
      · rfl
      · next hn => exact absurd (if_neg hn) hbare
    rw [hwraps] at hs
    exact wrapping_wraps hs

/-- Each record for plain values carries a name: those that are kept, and the one that a plain value
would be stored in now, unless that is the active schema itself. -/
structure Carries (f : String) (a : ActiveSchema) : Prop where
  kept : ∀ e ∈ a.wrapped, PlainValue.Wraps f e.2
  stored : ∀ x, (a.storage f).1 = .ok x → x.2.wrappedIn ≠ .none → PlainValue.Wraps f x.1

theorem Dedicated.carries (h : a.Dedicated f) : a.Carries f :=
  ⟨fun _ he => h.wraps he, fun _ hx hbare => storage_wraps h.genuine hx hbare⟩

end ActiveSchema

/-! ## Runs -/

namespace Loop

open ActiveSchema

variable {W S : Type} {p : Plan} {b : Backend W S} {clock : Readings} {l l' : Loop W S}
  {I : ActiveSchema → Prop}

theorem stable_of_frame (hI : Stable p.fieldName I) (h : l'.frame = l.frame) (hl : I l.active) :
    I l'.active := by
  have hactive : { l'.active with projection := .none } = { l.active with projection := .none } :=
    congrArg Frame.active h
  have hkept : l'.active = { l.active with projection := l'.active.projection } :=
    congrArg (fun a => { a with projection := l'.active.projection }) hactive
  rw [hkept]
  exact hI.projection hl _

theorem handle_stable (hI : Stable p.fieldName I) (r : Record) (hl : I l.active) :
    (handle p b clock r).Ends l (fun _ l' => I l'.active) (fun _ l' => I l'.active) := by
  have hreceived : I (l.active.receive p.fieldName r).active := hI.receive hl r
  refine handle_ends rfl (fun _ => hl) (fun _ _ => hreceived) fun schema binding _ => ?_
  exact ((deliver_frame clock r schema binding).ends _).mono
    (fun _ _ h => stable_of_frame hI h hreceived) fun _ _ h => stable_of_frame hI h hreceived

theorem apply_stable (hI : Stable p.fieldName I) (e : Event) (hl : I l.active) :
    I (l.apply p b e).active := by
  cases e with
  | put r => exact hl
  | iterate clock timeout =>
    refine advance_cases (R := fun l' => I l'.active) (fun _ => hl) fun _ => ?_
    refine iterate_cases (fun _ _ => hl) (fun _ => ?_) fun r rest _ => ?_
    · have hframe (l' : Loop W S) (h : l'.frame = l.frame) : I l'.active := stable_of_frame hI h hl
      exact ((commitIfDue_frame clock).ends l).mono (fun _ => hframe) fun _ => hframe
    · exact handle_stable (l := { l with queue := rest }) hI r hl

/-- What a loop does not change of the active schema in one step, it does not change in a run. -/
theorem after_stable (hI : Stable p.fieldName I) (events : List Event) (hl : I l.active) :
    I (after p b events l).active := by
  induction events generalizing l with
  | nil => exact hl
  | cons e events ih => exact ih (apply_stable hI e hl)

theorem after_dedicated (b : Backend W S) (world : S) (now : Double) (events : List Event) :
    (after p b events (start world now)).active.Dedicated p.fieldName :=
  after_stable (dedicated_stable p.fieldName) events (none_dedicated p.fieldName)

end Loop

/-! ## The name that is given -/

namespace FieldName

/-- A decoder's field has a name of the grammar, unless a name with a line feed was given for it. -/
theorem mem_names_iff {setting : Value} {f : String} (h : resolve setting = .ok f) :
    f.toList ∈ names ↔ ∀ s, setting = .str s → s.toList ∉ names * lineFeed := by
  constructor
  · rintro hf s rfl hs
    have hok : resolve (.str s) = .ok s := resolve_of_accepted (mem_names_mul.mpr (.inr hs))
    obtain rfl : s = f := Except.ok.inj (hok.symm.trans h)
    exact notMem_names_of_lineFeed hs hf
  · intro hnot
    obtain rfl | ⟨hsetting, haccepted⟩ := resolve_ok h
    · exact default_mem_names
    · exact (mem_names_mul.mp haccepted).resolve_right (hnot f hsetting)

/-- A text that is given for the name of the field of plain values is told as the grammar of names
tells it, just if it is no name with a line feed after it; one of those gets through as it is.

The name that the settings come to is a name of the grammar just if no such text was given, and each
record for plain values carries it: the one that a value suggests, and all that a loop makes in any
run, whatever its table writers do. -/
theorem screened_unless_line_feed (s : String) (settings : Settings) :
    (Screened s ↔ s.toList ∉ names * lineFeed) ∧
    (s.toList ∈ names * lineFeed → resolve (.str s) = .ok s) ∧
    ∀ p, Plan.ofSettings settings = .ok p →
      resolve settings.overrideFieldName = .ok p.fieldName ∧
      (p.fieldName.toList ∈ names ↔
        ∀ s', settings.overrideFieldName = .str s' → s'.toList ∉ names * lineFeed) ∧
      (∀ v text, PlainValue.descriptor v p.fieldName = .ok text → ∃ a schema,
        ActiveSchema.none.activate (some text) = .ok a ∧ a.schema = some schema ∧
          PlainValue.Wraps p.fieldName schema) ∧
      ∀ (W S : Type) (b : Backend W S) (world : S) (now : Double) (events : List Loop.Event),
        (Loop.after p b events (Loop.start world now)).active.Carries p.fieldName := by
  refine ⟨screened_iff s, fun hs => resolve_of_accepted (mem_names_mul.mpr (.inr hs)),
    fun p hp => ?_⟩
  obtain ⟨hname, -, -⟩ := Plan.ofSettings_ok hp
  refine ⟨hname, mem_names_iff hname, fun v text htext => PlainValue.wraps_of_descriptor htext, ?_⟩
  exact fun W S b world now events => (Loop.after_dedicated b world now events).carries

/-- The usual settings, with a text for the name of the field. -/
def naming (f : String) : Settings := { Settings.default with overrideFieldName := .str f }

/-- A plain value of a type that has to be wrapped into a record. -/
def word : Record where
  descriptor := some "string"
  encoding := .primitive
  payload := .str "x"
  id := .str "a"

def wordHandled : List Loop.Event := [.put word, .iterate (.still .zero) .zero]

/-- A loop that has handled a plain value. -/
def afterWord (p : Plan) : Loop (List Value) Unit :=
  Loop.after p .inMemory wordHandled (Loop.start () .zero)

theorem value_carried : ∃ p, Plan.ofSettings (naming "value") = .ok p ∧
    p.fieldName.toList ∈ names ∧
    ∃ e ∈ (afterWord p).active.wrapped, PlainValue.Wraps p.fieldName e.2 := by
  have hrun : Except.passes (fun p => (afterWord p).active.wrapped.isEmpty = false)
      (Plan.ofSettings (naming "value")) = true := by decide +kernel
  obtain ⟨p, hp, hkept⟩ := Except.of_passes hrun
  obtain ⟨-, -, hsettings⟩ := screened_unless_line_feed "value" (naming "value")
  obtain ⟨-, hname, -, hloop⟩ := hsettings p hp
  have hnot : ∀ s, (naming "value").overrideFieldName = .str s → s.toList ∉ names * lineFeed := by
    rintro s ⟨⟩ hs
    exact notMem_names_of_lineFeed hs (mem_names.mpr (by decide))
  obtain ⟨e, he⟩ := List.exists_mem_of_ne_nil _
    (List.isEmpty_eq_false_iff.mp (of_decide_eq_true hkept))
  have hcarries : (afterWord p).active.Carries p.fieldName :=
    hloop (List Value) Unit .inMemory () .zero wordHandled
  exact ⟨p, hp, hname.mpr hnot, e, he, hcarries.kept e he⟩

/-- A line feed after a name gets into the record that plain values are stored in. -/
theorem line_feed_carried : resolve (.str "value\n") = .ok "value\n" ∧
    "value\n".toList ∉ names ∧ ¬Screened "value\n" ∧
    ∃ p, Plan.ofSettings (naming "value\n") = .ok p ∧ p.fieldName = "value\n" ∧
      ∃ e ∈ (afterWord p).active.wrapped, PlainValue.Wraps "value\n" e.2 := by
  have hfeed : "value\n".toList ∈ names * lineFeed :=
    mem_names_mul_lineFeed.mpr ⟨"value".toList, mem_names.mpr (by decide), by decide⟩
  have hrun : Except.passes (fun p => p.fieldName = "value\n" ∧
      (afterWord p).active.wrapped.isEmpty = false) (Plan.ofSettings (naming "value\n")) = true := by
    decide +kernel
  obtain ⟨p, hp, hkept⟩ := Except.of_passes hrun
  obtain ⟨hname, hkept⟩ := of_decide_eq_true hkept
  obtain ⟨e, he⟩ := List.exists_mem_of_ne_nil _ (List.isEmpty_eq_false_iff.mp hkept)
  refine ⟨resolve_of_accepted (mem_names_mul.mpr (.inr hfeed)), notMem_names_of_lineFeed hfeed,
    fun h => (screened_iff _).mp h hfeed, p, hp, hname, e, he, ?_⟩
  have hdedicated : (afterWord p).active.Dedicated p.fieldName :=
    Loop.after_dedicated .inMemory () .zero wordHandled
  rw [hname] at hdedicated
  exact hdedicated.wraps he

end FieldName
end StreamTable
