/-
Plain values as rows.  A value that has a type can be stored by what it says of itself: its
descriptor is accepted at any time, the schema that it makes active is the record that the value is
stored in, and the row of the value fits that record, but for an integer of more than 64 bits.
-/
import StreamTable.Proofs.Avro.Lossless
import StreamTable.Proofs.Record.ActiveSchema
import StreamTable.Proofs.Record.FieldName
import StreamTable.Proofs.Record.PlainType

namespace StreamTable
namespace PlainValue

open Avro Validation

/-! ## Fitting -/

/-- The value itself, or the values of a map. -/
def parts : Value → List Value
  | .map es => es.map (·.2)
  | v => [v]

/-- Whether no integer in a plain value needs more than 64 bits, so that all are at least minus the
63rd power of two, and less than that power. -/
def FitsLong (v : Value) : Prop :=
  ∀ n, Value.int n ∈ parts v → -9223372036854775808 ≤ n ∧ n ≤ 9223372036854775807

/-- Whether a value is no integer of more than 64 bits. -/
def isLong : Value → Bool
  | .int n => minLong ≤ n && n ≤ maxLong
  | _ => true

theorem isLong_frozen (v : Value) : isLong (frozen v) = isLong v := by
  cases v <;> rfl

theorem fitsLong_iff {v : Value} : FitsLong v ↔ (parts v).all isLong = true := by
  have hlong (n : Int) : isLong (.int n) = true ↔
      -9223372036854775808 ≤ n ∧ n ≤ 9223372036854775807 := by
    simp only [isLong, Bool.and_eq_true, decide_eq_true_eq]
    rfl
  rw [List.all_eq_true]
  constructor
  · intro h x hx
    cases x with
    | int n => exact (hlong n).mpr (h n hx)
    | _ => rfl
  · exact fun h n hn => (hlong n).mp (h _ hn)

variable {resolve : Resolve} {path : String}

theorem checkWith_logical {p : Primitive} {attrs : Attributes} {l : Logical} {v v' : Value}
    (hl : Logical.of? p attrs = some l) (hv : l.prepare attrs v = .ok v') :
    checkWith resolve (.annotated p attrs) path v = .ok (fitsPrimitive p v') := by
  rw [checkWith, hl]
  dsimp only
  rw [hv]
  rfl

theorem fits_date (d : Date) : fitsPrimitive .int (.int d.sinceEpoch) = true := by
  have hmax := d.le_max
  simp only [fitsPrimitive, Bool.and_eq_true, decide_eq_true_eq]
  simp only [Date.maxOrdinal, minInt, maxInt, Date.sinceEpoch, Date.epochOrdinal] at hmax ⊢
  omega

theorem fits_time (t : Clock) : fitsPrimitive .int (.int (t.micros / 1000 : Nat)) = true := by
  have hday := t.lt_day
  simp only [fitsPrimitive, Bool.and_eq_true, decide_eq_true_eq]
  simp only [Clock.microsPerDay, minInt, maxInt] at hday ⊢
  omega

theorem lead_lt_day (t : Clock) : t.lead.natAbs < Clock.microsPerDay := by
  rw [Clock.lead]
  cases t.offset with
  | none => decide
  | some offset => exact offset.lt_day

theorem fits_timestamp (t : DateTime) :
    fitsPrimitive .long (.int (Int.fdiv t.instant 1000)) = true := by
  have hdate := t.date.le_max
  have hclock := t.clock.lt_day
  have hlead := lead_lt_day t.clock
  simp only [fitsPrimitive, Bool.and_eq_true, decide_eq_true_eq]
  rw [Int.fdiv_eq_ediv_of_nonneg _ (by decide)]
  simp only [Date.maxOrdinal, Clock.microsPerDay, minLong, maxLong, DateTime.instant,
    DateTime.localMicros, Date.sinceEpoch, Date.epochOrdinal] at hdate hclock hlead ⊢
  omega

/-- The logical type that a type writes into its schema is the one it means. -/
theorem logicalOf_schema : Logical.of? .int [Value.entry "logicalType" (.str "date")] = some .date ∧
    Logical.of? .int [Value.entry "logicalType" (.str "time-millis")] = some .timeMillis ∧
    Logical.of? .long [Value.entry "logicalType" (.str "timestamp-millis")] =
      some .timestampMillis := by
  decide +kernel

/-- A value that is no map fits its type as it is stored, unless it is an integer that is too
large. -/
theorem checkWith_scalar {v : Value} {t : Scalar} (h : Scalar.of? v = some t) :
    checkWith resolve t.schema path (frozen v) = .ok (isLong v) := by
  obtain ⟨hdate, htime, htimestamp⟩ := logicalOf_schema
  cases v with
  | date d =>
    cases h
    exact (checkWith_logical hdate rfl).trans (congrArg Except.ok (fits_date d))
  | time t =>
    cases h
    exact (checkWith_logical htime rfl).trans (congrArg Except.ok (fits_time t))
  | datetime t =>
    cases h
    exact (checkWith_logical htimestamp rfl).trans (congrArg Except.ok (fits_timestamp t))
  | int n => cases h; rfl
  | bool b => cases h; rfl
  | float x => cases h; rfl
  | str s => cases h; rfl
  | bytes b => cases h; rfl
  | bytearray b => cases h; rfl
  | _ => cases h

theorem allPass_of_ok {α : Type} {check : α → Except DataFault Bool} {p : α → Bool} {xs : List α}
    (h : ∀ x ∈ xs, check x = .ok (p x)) : allPass check xs = .ok (xs.all p) := by
  induction xs with
  | nil => rfl
  | cons x xs ih =>
    obtain ⟨hx, hxs⟩ := List.forall_mem_cons.mp h
    rw [allPass, hx, List.all_cons]
    cases p x with
    | true => exact ih hxs
    | false => rfl

/-- A plain value fits its type as it is stored, unless one of its integers is too large. -/
theorem checkWith_kind {v : Value} {t : Kind} (h : HasKind v t) :
    checkWith resolve t.schema path (stored v) = .ok ((parts v).all isLong) := by
  cases h with
  | @single v t h =>
    have hparts : parts v = [v] := by
      cases v with
      | map es => cases h
      | _ => rfl
    rw [hparts, (typed_of_single h).2]
    have hfits : checkWith resolve t.schema path (frozen v) = .ok (isLong v) :=
      checkWith_scalar h
    simpa [Kind.schema] using hfits
  | empty => rfl
  | @map es t hne hkeys h =>
    have hstr : (es.map frozenEntry).all (·.1.isStr) = true := by
      rw [List.all_map]
      exact List.all_eq_true.mpr hkeys
    have hlong : (parts (.map es)).all isLong = (es.map frozenEntry).all (isLong ·.2) := by
      rw [parts, List.all_map, List.all_map]
      exact List.all_congr rfl fun e => (isLong_frozen e.2).symm
    rw [Kind.schema, stored, checkWith, hstr, hlong]
    refine allPass_of_ok fun x hx => ?_
    obtain ⟨e, he, rfl⟩ := List.mem_map.mp hx
    have hvalue : checkWith resolve t.schema path (frozen e.2) = .ok (isLong e.2) :=
      checkWith_scalar (h e he)
    rw [← isLong_frozen] at hvalue
    exact hvalue

/-! ## Decoding -/

/-- The check of a row comes down to the check of its one field. -/
theorem checkWith_row {name f : String} {s : Schema} {v : Value} {b : Bool} (hf : f ≠ "-type")
    (h : ∀ path, checkWith resolve s path v = .ok b) :
    checkWith resolve (.record false name [(⟨.str f, []⟩, s)] []) path
      (Value.ofFields [(f, v)]) = .ok b := by
  have hmark : typeMarkFits [(.str f, v)] (nameAt path name) = true := by
    rw [typeMarkFits, Value.field?_cons, Value.isText, beq_false_of_ne hf]
    rfl
  have hvalue : fieldValue [(.str f, v)] ⟨.str f, []⟩ = .ok v := by
    rw [fieldValue]
    change Except.ok ((Value.field? [(.str f, v)] f).getD _) = _
    rw [Value.field?_cons, Value.isText, beq_self_eq_true]
    rfl
  rw [Value.ofFields, checkWith]
  change (if typeMarkFits [(.str f, v)] (nameAt path name) = true then _ else _) = _
  rw [if_pos hmark]
  change checkFields resolve [(⟨.str f, []⟩, s)] _ [(.str f, v)] = _
  rw [checkFields, hvalue]
  change (checkWith resolve s _ v >>= _) = _
  rw [h]
  cases b <;> rfl

theorem fits_record {v : Value} {t : Kind} {f : String} (h : HasKind v t) (hf : f ≠ "-type") :
    (t.record f).fits (Value.ofFields [(f, stored v)]) = .ok ((parts v).all isLong) := by
  rw [Schema.fits, settle_record]
  have hcheck (resolve : Resolve) :
      checkWith resolve (t.record f) "" (Value.ofFields [(f, stored v)]) =
        .ok ((parts v).all isLong) :=
    checkWith_row hf fun _ => checkWith_kind h
  change (checkWith _ (t.record f) "" _).mapError _ = _
  rw [hcheck]
  rfl

/-! ## Names of fields -/

theorem ne_typeMark_of_isName {f : String} (h : FieldName.isName f.toList = true) :
    f ≠ "-type" := by
  rintro rfl
  exact absurd h (by decide)

/-- A name is what the settings may give for the field of plain values. -/
theorem resolve_of_isName {f : String} (h : FieldName.isName f.toList = true) :
    FieldName.resolve (.str f) = .ok f := by
  have hname : f.toList ∈ FieldName.names := FieldName.mem_names.mpr h
  exact FieldName.resolve_of_accepted (FieldName.mem_names_mul.mpr (.inl hname))

end PlainValue

/-! ## The active schema -/

namespace ActiveSchema

/-- The states of the active schema: what comes of looking at descriptors, asking for the records
that plain values are stored in, and decoding, which may change the projection's defaults. -/
inductive Reached : ActiveSchema → Prop where
  | start : Reached none
  | observed {a : ActiveSchema} (h : Reached a) (descriptor : Option String) :
    Reached (a.observe descriptor).2
  | stored {a : ActiveSchema} (h : Reached a) (fieldName : String) :
    Reached (a.storage fieldName).2
  | decoded {a : ActiveSchema} (h : Reached a) (projection : Option Avro.Schema) :
    Reached { a with projection }

theorem Reached.genuine {a : ActiveSchema} (h : Reached a) : a.Genuine := by
  induction h with
  | start => exact none_genuine
  | observed _ descriptor ih => exact observe_genuine ih descriptor
  | stored _ fieldName ih => exact storage_genuine ih fieldName
  | decoded _ projection ih => exact ih.of_eq rfl

end ActiveSchema

namespace PlainValue

variable {a : ActiveSchema} {t : Kind} {f : String} {text : String}

/-- The node of a type makes its record the active schema, which is its own projection. -/
theorem takeUp_wrappingNode (a : ActiveSchema) (t : Kind) (f : String) (d : Option String) :
    a.takeUp (wrappingNode t.node f) d = .ok ⟨d, some (t.record f), some (t.record f),
      a.version + 1, wrappingNode t.node f, []⟩ := by
  have hschema : Avro.Descriptor.schemaOf (wrappingNode t.node f) d = .ok (t.record f) := by
    rw [Avro.Descriptor.schemaOf, parse_wrappingNode]
  have hstrip : (Avro.NullFree.strip (wrappingNode t.node f)).mapError Failure.data =
      .ok (wrappingNode t.node f) := by
    rw [strip_wrappingNode]
    rfl
  simp only [ActiveSchema.takeUp, hschema, hstrip, Bind.bind, Except.bind]
  rfl

/-- The descriptor is accepted, whatever was active before. -/
theorem observe_of_load (ha : a.Genuine)
    (hload : Avro.Descriptor.load (some text) = .ok (wrappingNode t.node f)) :
    ∃ changed a', a.observe (some text) = (.ok changed, a') ∧ a'.schema = some (t.record f) := by
  have hactivate (a : ActiveSchema) :=
    (ActiveSchema.activate_of_load hload).trans (takeUp_wrappingNode a t f (some text))
  cases hc : a.isChanged (some text) with
  | true => exact ⟨true, _, ActiveSchema.observe_of_activate hc (hactivate a), rfl⟩
  | false =>
    rw [ActiveSchema.isChanged, Bool.or_eq_false_iff] at hc
    have hsame : a.descriptor = some text := by simpa using hc.2
    have hpresent : a.isPresent = true := by rw [ActiveSchema.isPresent, hsame]; rfl
    obtain ⟨a₀, ha₀, hschema, -⟩ := ha.origin hpresent
    rw [hsame, hactivate] at ha₀
    refine ⟨false, a, ActiveSchema.observe_of_same ?_, ?_⟩
    · rw [ActiveSchema.isChanged, hc.1, hc.2]
      rfl
    · rw [hschema, ← Except.ok.inj ha₀]

/-- A record is stored with as it is. -/
theorem storage_of_record {a : ActiveSchema} (h : a.schema = some (t.record f)) (g : String) :
    a.storage g = (.ok (t.record f, a.binding), a) := by
  rw [ActiveSchema.storage, h]
  rfl

open Decoder

/-- A plain value comes to its row, or is dropped for an integer that is too large. -/
theorem decode_plain {v : Value} (h : HasKind v t) (hf : f ≠ "-type") {r : Record}
    (hencoding : r.encoding = .primitive) (hpayload : r.payload = v)
    (projection : Avro.Schema) :
    (FitsLong v → decode f r (t.record f) projection =
      ⟨Value.ofFields [(f, stored v)], [], projection⟩) ∧
    (¬FitsLong v → decode f r (t.record f) projection =
      ⟨.null, [complaint r (.row .mismatch none)], projection⟩) := by
  have hattempt : attempt f r (t.record f) projection =
      (conforming (Value.ofFields [(f, stored v)]) (t.record f), projection) := by
    rw [attempt, hencoding, hpayload, h.row f]
    rfl
  have hfits := fits_record h hf
  rw [fitsLong_iff]
  constructor
  · intro hlong
    rw [hlong] at hfits
    rw [decode, hattempt, conforming, hfits]
    rfl
  · intro hlong
    rw [Bool.eq_false_iff.mpr hlong] at hfits
    rw [decode, hattempt, conforming, hfits]
    rfl

/-- A value that makes no row is dropped, whatever the active schema. -/
theorem decode_of_row_error {r : Record} (hencoding : r.encoding = .primitive) {failure : Failure}
    (hrow : row r.payload f = .error failure) (schema projection : Avro.Schema) :
    (decode f r schema projection).row = .null := by
  have hattempt : attempt f r schema projection = (.error failure, projection) := by
    rw [attempt, hencoding, hrow]
    rfl
  rw [decode, hattempt]

/-- A plain value can be stored by what it says of itself, in a field of any name.  The values that
have a node are those that have a type.  Such a value has a descriptor, which is accepted at any
time; the schema that is active then is what plain values are stored with; and a record that
carries the value is decoded to the row of that one field, just if no integer in it needs more than
64 bits.  A value without a node has no row either, and a record that carries it is dropped. -/
theorem stored_by_own_descriptor {f : String} (hf : FieldName.isName f.toList = true)
    (v : Value) :
    FieldName.resolve (.str f) = .ok f ∧
    ((∃ n, node v f = .ok n) ↔ ∃ t, HasKind v t) ∧
    (∀ n, node v f = .ok n → ∃ text, descriptor v f = .ok text ∧
      ∀ a, ActiveSchema.Reached a → ∃ changed a' s,
        a.observe (some text) = (.ok changed, a') ∧ a'.schema = some s ∧
        a'.storage f = (.ok (s, a'.binding), a') ∧
        ∀ (r : Record) (projection : Avro.Schema), r.encoding = .primitive → r.payload = v →
          (FitsLong v → decode f r s projection =
            ⟨Value.ofFields [(f, stored v)], [], projection⟩) ∧
          (¬FitsLong v → decode f r s projection =
            ⟨.null, [complaint r (.row .mismatch none)], projection⟩)) ∧
    ((∀ n, node v f ≠ .ok n) → (∃ failure, row v f = .error failure) ∧
      ∀ (r : Record) (schema projection : Avro.Schema), r.encoding = .primitive → r.payload = v →
        (decode f r schema projection).row = .null) := by
  refine ⟨resolve_of_isName hf, node_isOk_iff, fun n hn => ?_, fun hnone => ?_⟩
  · obtain ⟨t, ht⟩ := node_isOk_iff.mp ⟨n, hn⟩
    obtain ⟨text, htext, hload⟩ := ht.descriptor f
    refine ⟨text, htext, fun a ha => ?_⟩
    obtain ⟨changed, a', hobserve, hschema⟩ := observe_of_load ha.genuine hload
    refine ⟨changed, a', t.record f, hobserve, hschema, storage_of_record hschema f, ?_⟩
    intro r projection hencoding hpayload
    exact decode_plain ht (ne_typeMark_of_isName hf) hencoding hpayload projection
  · have htypeless : ¬∃ t, HasKind v t := fun h => by
      obtain ⟨n, hn⟩ := node_isOk_iff.mpr h
      exact hnone n hn
    obtain ⟨failure, hrow⟩ := row_error htypeless f
    refine ⟨⟨failure, hrow⟩, fun r schema projection hencoding hpayload => ?_⟩
    exact decode_of_row_error hencoding (by rw [hpayload]; exact hrow) schema projection

/-- A map of one count. -/
def count (n : Int) : Value := Value.ofFields [("count", .int n)]

def countRecord (n : Int) : Record := ⟨none, .primitive, count n, .null⟩

/-- A count of 64 bits is stored and one of more is dropped. -/
theorem counts_stored : ∃ text s, descriptor (count 7) "message" = .ok text ∧
    (ActiveSchema.none.observe (some text)).2.schema = some s ∧
    (decode "message" (countRecord 7) s s).row = Value.ofFields [("message", count 7)] ∧
    ∃ text s, descriptor (count 9223372036854775808) "message" = .ok text ∧
      (ActiveSchema.none.observe (some text)).2.schema = some s ∧
      (decode "message" (countRecord 9223372036854775808) s s).row = .null := by
  have hname : FieldName.isName "message".toList = true := by decide
  have hlong (n : Int) : FitsLong (count n) ↔
      -9223372036854775808 ≤ n ∧ n ≤ 9223372036854775807 :=
    ⟨fun h => h n List.mem_cons_self, fun h m hm => by
      rw [Value.int.inj (List.mem_singleton.mp hm)]
      exact h⟩
  have hstored (n : Int) := stored_by_own_descriptor hname (count n)
  obtain ⟨text, htext, h⟩ := (hstored 7).2.2.1 _ rfl
  obtain ⟨changed, a, s, hobserve, hschema, -, hdecode⟩ := h _ .start
  obtain ⟨text', htext', h'⟩ := (hstored 9223372036854775808).2.2.1 _ rfl
  obtain ⟨changed', a', s', hobserve', hschema', -, hdecode'⟩ := h' _ .start
  refine ⟨text, s, htext, by rw [hobserve]; exact hschema, ?_, text', s', htext',
    by rw [hobserve']; exact hschema', ?_⟩
  · have hrow := (hdecode (countRecord 7) s rfl rfl).1 ((hlong 7).mpr (by decide))
    rw [hrow]
    rfl
  · have hrow := (hdecode' (countRecord 9223372036854775808) s' rfl rfl).2
      (fun h => absurd ((hlong _).mp h) (by decide))
    rw [hrow]

end PlainValue
end StreamTable
