/-
Refused descriptors.  Looking at a descriptor either answers whether it is another one or refuses
it, unless its fault escapes: an integer in it has too many digits, the reader of schemas is broken
off, or a node that is marked as checked is taken as it is and cannot be stripped of nulls.  Nothing
else can go wrong; where the projection is read, no fault escapes that did not before.  Whatever
fails, it changes nothing.

Whether a descriptor escapes does not depend on what was active before.  An ordinary one does not:
all of it is read, and nothing in it breaks the reader off.
-/
import StreamTable.Proofs.Avro.Sound
import StreamTable.Proofs.Record.ActiveSchema

namespace StreamTable

namespace Avro
namespace Descriptor

open Schema (AtTop TameAlone)

/-- The fault of a descriptor is not reported as one. -/
inductive Escapes (d : Option String) : Prop where
  /-- An integer has more digits than are read. -/
  | digits (hload : load d = .error (.data .wrongValue))
  /-- The reader of schemas is broken off. -/
  | reading {node : Value} {fault : SchemaFault} (hload : load d = .ok node)
    (hparse : Schema.parse node = .error fault) (hfault : isReported fault = false)
  /-- There is a schema, but its node cannot be stripped of nulls. -/
  | stripping {node : Value} {s : Schema} {fault : DataFault} (hload : load d = .ok node)
    (hparse : Schema.parse node = .ok s) (hstrip : NullFree.strip node = .error fault)

/-- No integer in a descriptor has too many digits, no node at its top is marked as checked, and no
object that is read has a name that is a list or an object with a dot in it, or a decimal size
beyond all bounds. -/
structure Ordinary (d : Option String) : Prop where
  digits : load d ≠ .error (.data .wrongValue)
  node : ∀ {node}, load d = .ok node → AtTop TameAlone node

section

variable {d : Option String} {f : Failure}

theorem Ordinary.not_escapes (h : Ordinary d) : ¬Escapes d := by
  intro hescapes
  cases hescapes with
  | digits hload => exact h.digits hload
  | reading hload hparse hfault =>
    have hreported : isReported _ = true := Schema.parse_reported (h.node hload) hparse
    rw [hfault] at hreported
    cases hreported
  | stripping hload hparse hstrip =>
    obtain ⟨node', hok⟩ := Schema.strip_of_parse (load_keyed hload) (h.node hload) hparse
    rw [hstrip] at hok
    cases hok

theorem load_error (h : load d = .error f) :
    (∃ fault, f = .descriptor fault d) ∨ f = .data .wrongValue := by
  unfold load at h
  split at h
  · cases h
    exact .inl ⟨_, rfl⟩
  · dsimp only at h
    split at h
    · cases h
      exact .inl ⟨_, rfl⟩
    · split at h
      · cases h
      · cases h
        exact .inr rfl
      · split at h
        · cases h
        · cases h
          exact .inl ⟨_, rfl⟩

theorem schemaOf_error {node : Value} (h : schemaOf node d = .error f) :
    ∃ fault, Schema.parse node = .error fault ∧
      f = if isReported fault then .descriptor (.badSchema fault) d else .schema fault := by
  unfold schemaOf at h
  cases hparse : Schema.parse node with
  | ok s =>
    rw [hparse] at h
    cases h
  | error fault =>
    rw [hparse] at h
    refine ⟨fault, rfl, ?_⟩
    dsimp only at h
    split at h
    · rename_i hreported
      cases h
      rw [if_pos hreported]
    · rename_i hreported
      cases h
      rw [if_neg hreported]

theorem schemaOf_unreported {node : Value} {fault : SchemaFault}
    (hparse : Schema.parse node = .error fault) (hfault : isReported fault = false) :
    schemaOf node d = .error (.schema fault) := by
  rw [schemaOf, hparse]
  exact if_neg (Bool.eq_false_iff.mp hfault)

end

end Descriptor
end Avro

namespace ActiveSchema

open Avro.Descriptor

variable {a : ActiveSchema} {d : Option String}

/-- Looking at a descriptor gives an answer, or it refuses the descriptor. -/
def Heeds (a : ActiveSchema) (d : Option String) : Prop :=
  (∃ changed, (a.observe d).1 = .ok changed) ∨
    ∃ fault, (a.observe d).1 = .error (.descriptor fault d)

/-- A descriptor that escapes fails with what is no refusal. -/
theorem activate_of_escapes (h : Escapes d) :
    ∃ f, a.activate d = .error f ∧ ∀ fault, f ≠ .descriptor fault d := by
  cases h with
  | digits hload =>
    refine ⟨.data .wrongValue, ?_, fun fault hf => by cases hf⟩
    simp only [activate, Bind.bind, Except.bind, hload]
  | @reading node fault hload hparse hfault =>
    refine ⟨.schema fault, ?_, fun fault hf => by cases hf⟩
    simp only [activate, Bind.bind, Except.bind, hload, schemaOf_unreported hparse hfault]
  | @stripping node s fault hload hparse hstrip =>
    have hschema : schemaOf node d = .ok s := by rw [schemaOf, hparse]
    refine ⟨.data fault, ?_, fun fault hf => by cases hf⟩
    simp only [activate, Bind.bind, Except.bind, hload, hschema, hstrip, Except.mapError]

/-- A failure that is no refusal comes of a descriptor that escapes. -/
theorem escapes_of_activate {f : Failure} (h : a.activate d = .error f)
    (hf : ∀ fault, f ≠ .descriptor fault d) : Escapes d := by
  unfold activate at h
  obtain hload | ⟨node, hload, h⟩ := Except.of_bind_error h
  · obtain ⟨fault, hfault⟩ | rfl := load_error hload
    · exact absurd hfault (hf fault)
    · exact .digits hload
  · obtain hschema | ⟨s, hschema, h⟩ := Except.of_bind_error h
    · obtain ⟨fault, hparse, hfault⟩ := schemaOf_error hschema
      cases hreported : isReported fault with
      | true =>
        rw [hreported] at hfault
        exact absurd hfault (hf _)
      | false => exact .reading hload hparse hreported
    · have hparse := parse_of_schemaOf hschema
      cases hstrip : Avro.NullFree.strip node with
      | error fault => exact .stripping hload hparse hstrip
      | ok node' =>
        rw [hstrip] at h
        cases hprojection : schemaOf node' d with
        | ok p =>
          simp only [Bind.bind, Except.bind, Except.mapError, hprojection] at h
          cases h
        | error g =>
          simp only [Bind.bind, Except.bind, Except.mapError, hprojection] at h
          cases h
          obtain ⟨fault, hparse', hfault⟩ := schemaOf_error hprojection
          have hreported : isReported fault = true :=
            Avro.Schema.parse_stripped_reported (load_keyed hload) hparse hstrip hparse'
          rw [hreported] at hfault
          exact absurd hfault (hf _)

/-- A descriptor that is looked at gives an answer or is refused, unless it escapes. -/
theorem heeds_iff (a : ActiveSchema) (d : Option String) :
    a.Heeds d ↔ (a.isChanged d = true → ¬Escapes d) := by
  unfold Heeds
  cases hc : a.isChanged d with
  | false =>
    rw [observe_of_same hc]
    exact ⟨fun _ hchanged => (by cases hchanged), fun _ => .inl ⟨false, rfl⟩⟩
  | true =>
    cases ha : a.activate d with
    | ok a' =>
      rw [observe_of_activate hc ha]
      refine ⟨fun _ _ hescapes => ?_, fun _ => .inl ⟨true, rfl⟩⟩
      obtain ⟨f, hf, -⟩ := activate_of_escapes (a := a) hescapes
      rw [ha] at hf
      cases hf
    | error f =>
      rw [observe_of_refused hc ha]
      constructor
      · rintro (⟨changed, h⟩ | ⟨fault, h⟩) _ hescapes
        · cases h
        · obtain ⟨g, hg, hne⟩ := activate_of_escapes (a := a) hescapes
          rw [ha] at hg
          cases h
          cases hg
          exact hne fault rfl
      · intro h
        by_contra hnone
        refine h rfl (escapes_of_activate ha fun fault hf => hnone (.inr ⟨fault, ?_⟩))
        rw [hf]

/-! ## Refusals -/

/-- Looking at an ordinary descriptor gives an answer or refuses it.  Looking at another one does so
too, unless it is not the active one and it escapes.  Whatever it is that fails, the descriptor, the
schema, the projection, the version and the records of plain values are left as they were. -/
theorem observe_refuses (a : ActiveSchema) (d : Option String) :
    (Ordinary d → a.Heeds d) ∧ (a.Heeds d ↔ (a.isChanged d = true → ¬Escapes d)) ∧
      ∀ f, (a.observe d).1 = .error f → (a.observe d).2 = a :=
  ⟨fun h => (heeds_iff a d).mpr fun _ => h.not_escapes, heeds_iff a d,
    fun _ h => observe_error (Prod.ext h rfl)⟩

/-- An array that does not say of what. -/
def bareArray : String := "\x7b\"type\": \"array\"\x7d"

def isBareArray : Value → Bool
  | .map [(.str key, .str kind)] => key == "type" && kind == "array"
  | _ => false

theorem bareArray_ordinary : Ordinary (some bareArray) := by
  have hload : Except.passes isBareArray (load (some bareArray)) = true := by
    decide +kernel
  obtain ⟨node, hload, harray⟩ := Except.of_passes hload
  refine ⟨fun hdigits => (by cases hload.symm.trans hdigits), fun {node'} hload' => ?_⟩
  cases hload.symm.trans hload'
  unfold isBareArray at harray
  split at harray
  · rename_i key kind
    obtain ⟨hkey, hkind⟩ := Bool.and_eq_true_iff.mp harray
    rw [beq_iff_eq] at hkey hkind
    subst hkey hkind
    have htype : Value.field? [(.str "type", .str "array")] "type" = some (.str "array") := by
      rw [Value.field?_cons]
      exact if_pos (by decide)
    have hitems : Value.field? [(.str "type", .str "array")] "items" = Option.none := by
      rw [Value.field?_cons]
      exact if_neg (by decide)
    have htame : Avro.Schema.TameEntries [(.str "type", .str "array")] := by
      refine ⟨fun {kind} hkind hnamed => ?_, fun {type} _ => ?_⟩
      · cases htype.symm.trans hkind
        cases hnamed
      · rw [Avro.Schema.checkAttributes, if_neg (by decide +kernel)]
        intro h
        cases h
    refine .single rfl ⟨by decide +kernel, .intro htame fun x hx => ?_⟩
    rw [Avro.Schema.inner_map htype, Avro.Schema.nodesOfKind, hitems] at hx
    cases hx
  · cases harray

/-- Such an array is refused. -/
theorem bareArray_refused :
    ∃ fault, none.observe (some bareArray) = (.error (.descriptor fault (some bareArray)), none) := by
  have hfails : Except.passes (fun _ => true) (none.observe (some bareArray)).1 = false := by
    decide +kernel
  obtain ⟨hheeds, -, hkept⟩ := observe_refuses none (some bareArray)
  obtain ⟨changed, h⟩ | ⟨fault, h⟩ := hheeds bareArray_ordinary
  · rw [h] at hfails
    cases hfails
  · exact ⟨fault, Prod.ext h (hkept _ h)⟩

/-- An array that does not say of what, but is marked as checked. -/
def markedArray : String :=
  "\x7b\"__fastavro_parsed\": true, \"__named_schemas\": \x7b\x7d, \"type\": \"array\"\x7d"

def isMissingItems : Except Failure Bool → Bool
  | .error (.data (.missingKey key)) => key.isText "items"
  | _ => false

theorem eq_of_isMissingItems {r : Except Failure Bool} (h : isMissingItems r = true) :
    r = .error (.data (.missingKey (.str "items"))) := by
  unfold isMissingItems at h
  split at h
  · rw [Value.isText_eq_same, Value.same_str] at h
    rw [h]
  · cases h

/-- Such an array is taken as it is, and its projection fails with what is no refusal. -/
theorem markedArray_unheeded :
    (none.observe (some markedArray)).1 = .error (.data (.missingKey (.str "items"))) ∧
      ¬none.Heeds (some markedArray) := by
  have h : isMissingItems (none.observe (some markedArray)).1 = true := by
    decide +kernel
  have h := eq_of_isMissingItems h
  refine ⟨h, ?_⟩
  rintro (⟨changed, hok⟩ | ⟨fault, herror⟩)
  · cases h.symm.trans hok
  · cases h.symm.trans herror

end ActiveSchema
end StreamTable
