/-
Schemas that are not given as text.  An entry may give its schema as a JSON value, and a plain value
comes with the schema that is read off it.  Either way the record carries a descriptor, which is the
text of that value; what is loaded from the descriptor later is the value itself, the order of the
keys of its objects included.
-/
import StreamTable.Proofs.Json.Ascii
import StreamTable.Proofs.Record.PlainType
import StreamTable.Record.Entry

namespace StreamTable

open Json (Faithful Printed)

namespace Record

/-- The descriptor of an entry with an inline schema is the text of that schema.  It does not depend
on the line, the encoding or the payload; only an encoding that there is none of stands in the
way. -/
theorem descriptor_of_inline {es : List (Value × Value)} {schema : Value} {text : String}
    (hschema : Value.field? es "schema" = some schema) (hnull : schema ≠ .null)
    (hstr : ∀ s, schema ≠ .str s) (htext : Json.print? schema = some text) (line : Nat)
    (fieldName : String) :
    (ofEntry line (.map es) fieldName).map Record.descriptor =
      (Encoding.ofEntry line es).map fun _ => some text := by
  have hdescriptor (encoding : Encoding) (payload : Value) :
      descriptorOf encoding schema payload fieldName = .ok text := by
    rw [descriptorOf]
    · rw [htext]
    · exact hnull
    · exact hstr
  simp only [ofEntry, hschema, Option.getD_some]
  cases Encoding.ofEntry line es with
  | error failure => rfl
  | ok encoding =>
    change Except.map _ (descriptorOf encoding schema _ fieldName >>= _) = _
    rw [hdescriptor]
    rfl

end Record

namespace PlainValue

/-- The descriptor of a plain value is the text of its node. -/
theorem descriptor_of_node {v n : Value} {f : String} (h : node v f = .ok n) :
    ∃ text, descriptor v f = .ok text ∧ Printed text.toList ∧
      Avro.Descriptor.load (some text) = .ok n := by
  obtain ⟨t, ht⟩ := node_isOk_iff.mp ⟨n, h⟩
  have hn : n = wrappingNode t.node f := Except.ok.inj (h.symm.trans (ht.node f))
  have hfaithful : Faithful n := by
    rw [hn]
    exact faithful_wrappingNode (faithful_kind t) f
  obtain ⟨text, hprint, hload⟩ := hfaithful.load_print
  refine ⟨text, ?_, Json.printed_print? hprint, hload⟩
  simp only [descriptor, h, hprint, bind, Except.bind, pure, Except.pure]

end PlainValue

namespace Record

/-- A schema survives the text that it is carried as.  One that an entry gives as a JSON value, with
integers alone for numbers and neither null nor a text, makes a descriptor of ASCII characters that
the very same value is loaded from; and so does the node that is read off a plain value, for a field
of any name. -/
theorem schema_survives_descriptor :
    (∀ schema, Faithful schema → schema ≠ .null → (∀ s, schema ≠ .str s) →
      ∃ text, Printed text.toList ∧ Avro.Descriptor.load (some text) = .ok schema ∧
        ∀ (line : Nat) (es : List (Value × Value)) (fieldName : String),
          Value.field? es "schema" = some schema →
          (ofEntry line (.map es) fieldName).map Record.descriptor =
            (Encoding.ofEntry line es).map fun _ => some text) ∧
    (∀ (v n : Value) (fieldName : String), PlainValue.node v fieldName = .ok n →
      ∃ text, PlainValue.descriptor v fieldName = .ok text ∧ Printed text.toList ∧
        Avro.Descriptor.load (some text) = .ok n) := by
  refine ⟨fun schema hfaithful hnull hstr => ?_, fun v n fieldName => PlainValue.descriptor_of_node⟩
  obtain ⟨text, hprint, hload⟩ := hfaithful.load_print
  refine ⟨text, Json.printed_print? hprint, hload, fun line es fieldName hschema => ?_⟩
  exact descriptor_of_inline hschema hnull hstr hprint line fieldName

/-- Two symbols, one of them beyond the characters of 16 bits, and a number beyond 64 bits. -/
def clefs : Value :=
  Value.ofFields [("type", .str "enum"), ("name", .str "Clef"),
    ("symbols", .list [.str "𝄞", .str "a\"b\\\n"]), ("rank", .int (-36893488147419103232))]

theorem clefs_faithful : Faithful clefs := by
  refine .fields _ (by decide) ?_
  simp only [List.forall_mem_cons]
  refine ⟨.str _, .str _, .list _ ?_, .int _ (by decide +kernel), List.forall_mem_nil _⟩
  simp only [List.forall_mem_cons]
  exact ⟨.str _, .str _, List.forall_mem_nil _⟩

/-- The schema of a line that says nothing of its encoding, and the node of a count. -/
theorem clefs_survive : ∃ text, Avro.Descriptor.load (some text) = .ok clefs ∧
    (ofEntry 3 (.map [Value.entry "schema" clefs]) "message").map Record.descriptor =
      .ok (some text) ∧
    ∃ text, PlainValue.descriptor (.int 7) "message" = .ok text ∧
      Avro.Descriptor.load (some text) =
        .ok (PlainValue.wrappingNode (.str "long") "message") := by
  obtain ⟨text, -, hload, hentry⟩ :=
    schema_survives_descriptor.1 clefs clefs_faithful nofun nofun
  obtain ⟨count, hcount, -, hnode⟩ := schema_survives_descriptor.2 (.int 7) _ "message" rfl
  have hschema : Value.field? [Value.entry "schema" clefs] "schema" = some clefs := by
    simp [Value.entry, Value.field?_cons, Value.isText]
  have hencoding : Encoding.ofEntry 3 [Value.entry "schema" clefs] = .ok .json := by
    simp [Encoding.ofEntry, Value.entry, Value.field?_cons, Value.field?_nil, Value.isText]
  refine ⟨text, hload, ?_, count, hcount, hnode⟩
  rw [hentry 3 _ "message" hschema, hencoding]
  rfl

end Record
end StreamTable
