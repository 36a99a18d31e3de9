/-
Records that cannot be decoded.  Such a record is reported by one warning, and comes to null; a
record that is decoded is not reported, and comes to its row.  So null tells that a record was
reported, but for rows that are null themselves: there are some if the active schema is no record
and takes null.
-/
import StreamTable.Proofs.Record.PlainType
import StreamTable.Proofs.Record.Projection

namespace StreamTable

/-! ## Records and their projections -/

namespace Avro

/-- The texts of the types of records. -/
theorem isRecordNode_map {es : List (Value × Value)} : isRecordNode (.map es) = true ↔
    Value.field? es "type" = some (.str "record") ∨
      Value.field? es "type" = some (.str "error") := by
  rw [isRecordNode, Value.get?]
  cases Value.field? es "type" with
  | none => simp
  | some type => simp [Value.isText_eq_same, Value.same_str]

/-- Nulls are taken out of a record's fields, and it is a record still. -/
theorem NullFree.strip_isRecordNode {node node' : Value} (h : strip node = .ok node')
    (hnode : isRecordNode node = true) : isRecordNode node' = true := by
  cases node with
  | map es =>
    have hkept {kind : String} (htype : Value.field? es "type" = some (.str kind))
        (h : (stripFieldsEntry es >>= fun stripped => pure (Value.map (withFields es stripped))) =
          .ok node') : ∃ es', node' = .map es' ∧ Value.field? es' "type" = some (.str kind) := by
      obtain ⟨es', hes', h⟩ := Except.of_bind_ok h
      cases h
      rw [stripFieldsEntry_eq] at hes'
      exact ⟨_, rfl, ((withFields_stripped hes').1.field?_eq (by decide)).trans htype⟩
    rw [strip.eq_def] at h
    obtain htype | htype := isRecordNode_map.mp hnode
    · simp only [htype] at h
      obtain ⟨es', rfl, htype'⟩ := hkept htype h
      exact isRecordNode_map.mpr (.inl htype')
    · simp only [htype] at h
      obtain ⟨es', rfl, htype'⟩ := hkept htype h
      exact isRecordNode_map.mpr (.inr htype')
  | _ => cases hnode

namespace Schema

theorem ReadFrom.isRecord_eq {s : Schema} {node : Value} {scope : Scope}
    (h : s.ReadFrom node scope) : s.isRecord = isRecordNode node := by
  have hkind {es : List (Value × Value)} {kind : String} {attrs : Attributes}
      (hes : Describes es kind attrs) :
      isRecordNode (.map es) = (kind == "record" || kind == "error") := by
    rw [isRecordNode, Value.get?, hes.type]
    rfl
  cases s with
  | primitive p =>
    cases h
    rfl
  | named name =>
    obtain ⟨t, rfl, -⟩ := h
    rfl
  | annotated p attrs =>
    obtain ⟨es, rfl, hes⟩ := h
    have hname : (p.name == "record" || p.name == "error") = false := by cases p <;> decide
    rw [hkind hes, hname]
    rfl
  | array items attrs =>
    obtain ⟨es, v, rfl, hes, -⟩ := h
    exact (hkind hes).symm
  | map values attrs =>
    obtain ⟨es, v, rfl, hes, -⟩ := h
    exact (hkind hes).symm
  | enum name symbols attrs =>
    obtain ⟨es, inner, rfl, hes, -⟩ := h
    exact (hkind hes).symm
  | fixed name size attrs =>
    obtain ⟨es, inner, rfl, hes, -⟩ := h
    exact (hkind hes).symm
  | record isError name fields attrs =>
    obtain ⟨es, inner, rfl, hes, -⟩ := h
    rw [hkind hes]
    cases isError <;> rfl
  | union branches =>
    obtain ⟨xs, rfl, -⟩ := h
    rfl
  | unchecked node => cases h

/-- Whether a schema is a record is seen from its node. -/
theorem isRecord_of_parse {node : Value} {s : Schema} (h : parse node = .ok s) :
    s.isRecord = isRecordNode node := by
  have htop : Yields (parseTop node) s := yields_of_run' h
  cases node with
  | list xs =>
    rw [parseTop] at htop
    obtain ⟨branches, -, htop⟩ := yields_bind htop
    rw [yields_pure htop]
    rfl
  | map es =>
    have hes := parseTop_map htop
    split at hes
    · rw [hes]
      rfl
    · exact hes.isRecord_eq
  | _ => exact (parseTop_atom htop rfl rfl).isRecord_eq

theorem withDefaults_isRecord (s : Schema) (defaults : List Value) :
    (s.withDefaults defaults).isRecord = s.isRecord := by
  cases s <;> rfl

/-- Null is no row of a record. -/
theorem fits_null_ne_true {s : Schema} (h : s.isRecord = true) : s.fits .null ≠ .ok true := by
  rw [fits]
  cases ht : s.settle with
  | error fault =>
    intro hfits
    cases hfits
  | ok t =>
    obtain ⟨isError, htag⟩ := tag_of_settle h ht
    cases t with
    | record isError name fields attrs =>
      intro hfits
      cases hfits
    | _ => cases htag

end Schema
end Avro

/-- The projection of a record is a record. -/
theorem ActiveSchema.observe_isRecord {a a' : ActiveSchema} {d : Option String} {s p : Avro.Schema}
    (h : a.observe d = (.ok true, a')) (hs : a'.schema = some s) (hp : a'.projection = some p)
    (hrecord : s.isRecord = true) : p.isRecord = true := by
  have hchanged : a.isChanged d = true := (observe_ok h).symm
  cases ha : a.activate d with
  | error f =>
    rw [observe_of_refused hchanged ha] at h
    cases h
  | ok a₁ =>
    rw [observe_of_activate hchanged ha] at h
    cases h
    obtain ⟨node, -, ha⟩ := Except.of_bind_ok ha
    obtain ⟨schema, hschema, ha⟩ := Except.of_bind_ok ha
    obtain ⟨stripped, hstripped, ha⟩ := Except.of_bind_ok ha
    obtain ⟨projection, hprojection, ha⟩ := Except.of_bind_ok ha
    cases ha
    cases hs
    cases hp
    rw [Avro.Schema.isRecord_of_parse (parse_of_schemaOf hschema)] at hrecord
    rw [Avro.Schema.isRecord_of_parse (parse_of_schemaOf hprojection)]
    exact Avro.NullFree.strip_isRecordNode (Except.ok_of_mapError hstripped) hrecord

namespace Decoder

/-! ## What a record is decoded to -/

/-- The row of a record: the payload of a binary record and the row of a plain value, if they fit
the schema; what reading finds in a document, if it fits the projection. -/
def IsRow (fieldName : String) (r : Record) (schema projection : Avro.Schema) (row : Value) :
    Prop :=
  match r.encoding with
  | .binary => row = r.payload ∧ schema.fits row = .ok true
  | .json => (json r.payload projection).1 = .ok row
  | .primitive => PlainValue.row r.payload fieldName = .ok row ∧ schema.fits row = .ok true

variable {fieldName : String} {r : Record} {schema projection : Avro.Schema} {row : Value}

theorem conforming_ok_iff {row' : Value} :
    conforming row schema = .ok row' ↔ row' = row ∧ schema.fits row' = .ok true := by
  rw [conforming]
  constructor
  · intro h
    obtain ⟨fits, hfits, h⟩ := Except.of_bind_ok h
    cases fits with
    | true =>
      cases h
      exact ⟨rfl, hfits⟩
    | false => cases h
  · rintro ⟨rfl, hfits⟩
    rw [hfits]
    rfl

/-- An attempt succeeds with the row. -/
theorem attempt_ok_iff :
    (attempt fieldName r schema projection).1 = .ok row ↔
      IsRow fieldName r schema projection row := by
  rw [attempt, IsRow]
  cases r.encoding with
  | binary => exact conforming_ok_iff
  | json => exact Iff.rfl
  | primitive =>
    constructor
    · intro h
      obtain ⟨row', hrow', h⟩ := Except.of_bind_ok h
      obtain ⟨rfl, hfits⟩ := conforming_ok_iff.mp h
      exact ⟨hrow', hfits⟩
    · rintro ⟨hrow, hfits⟩
      dsimp only
      rw [hrow]
      exact conforming_ok_iff.mpr ⟨rfl, hfits⟩

theorem decode_of_isRow (h : IsRow fieldName r schema projection row) :
    (decode fieldName r schema projection).row = row ∧
      (decode fieldName r schema projection).log = [] := by
  have h := attempt_ok_iff.mpr h
  rw [decode]
  rcases hattempt : attempt fieldName r schema projection with ⟨result, projection'⟩
  rw [hattempt] at h
  dsimp only at h
  subst h
  exact ⟨rfl, rfl⟩

theorem decode_of_rowless (h : ∀ row, ¬IsRow fieldName r schema projection row) :
    (decode fieldName r schema projection).row = .null ∧
      ∃ cause, (decode fieldName r schema projection).log = [complaint r cause] := by
  rw [decode]
  rcases hattempt : attempt fieldName r schema projection with ⟨cause | row, projection'⟩
  · exact ⟨rfl, cause, rfl⟩
  · exact absurd (attempt_ok_iff.mp (congrArg Prod.fst hattempt)) (h row)

/-! ## Rows that are null -/

/-- Reading a document leaves a projection that is a record a record. -/
theorem json_isRecord (payload : Value) (projection : Avro.Schema) :
    (json payload projection).2.isRecord = projection.isRecord := by
  unfold json
  cases documentOf payload with
  | error f => rfl
  | ok document =>
    dsimp only
    unfold rowOf
    split
    · split <;> rfl
    · dsimp only
      split
      · split <;> exact Avro.Schema.withDefaults_isRecord _ _
      · split <;> exact Avro.Schema.withDefaults_isRecord _ _

theorem worn_isRecord (payloads : List Value) (projection : Avro.Schema) :
    (worn projection payloads).isRecord = projection.isRecord := by
  induction payloads generalizing projection with
  | nil => rfl
  | cons payload payloads ih => exact (ih _).trans (json_isRecord payload projection)

/-- The row of a plain value is no null. -/
theorem plain_row_ne_null {v : Value} : PlainValue.row v fieldName ≠ .ok .null := by
  intro h
  unfold PlainValue.row at h
  split at h
  · cases h
  · obtain ⟨p, -, h⟩ := Except.of_bind_ok h
    cases h

/-- A null row is a binary payload that is null, or read from a document, and fits what it was
checked with, which is no record. -/
theorem isRow_null (h : IsRow fieldName r schema projection .null) :
    (r.encoding = .binary ∧ r.payload = .null ∧ schema.fits .null = .ok true ∧
      schema.isRecord = false) ∨
    (r.encoding = .json ∧
      (decode fieldName r schema projection).projection.fits .null = .ok true ∧
      projection.isRecord = false) := by
  rw [IsRow] at h
  cases hencoding : r.encoding with
  | binary =>
    rw [hencoding] at h
    obtain ⟨hpayload, hfits⟩ := h
    refine .inl ⟨rfl, hpayload.symm, hfits, Bool.eq_false_iff.mpr fun hrecord => ?_⟩
    exact Avro.Schema.fits_null_ne_true hrecord hfits
  | json =>
    rw [hencoding] at h
    have hfits := json_fits h
    have hattempt : attempt fieldName r schema projection = json r.payload projection := by
      rw [attempt, hencoding]
    have hprojection : (decode fieldName r schema projection).projection =
        (json r.payload projection).2 := by
      rw [decode, hattempt]
      rcases json r.payload projection with ⟨_ | _, _⟩ <;> rfl
    refine .inr ⟨rfl, hprojection ▸ hfits, Bool.eq_false_iff.mpr fun hrecord => ?_⟩
    rw [← json_isRecord r.payload] at hrecord
    exact Avro.Schema.fits_null_ne_true hrecord hfits
  | primitive =>
    rw [hencoding] at h
    exact absurd h.1 plain_row_ne_null

/-! ## Reports -/

/-- What decoding says of a record, by any descriptor that was accepted and after any payloads were
read.  A record that has a row comes to it and is not reported; so no binary payload or plain value
that fits its schema is.  A record without a row comes to null and is reported by one warning.  That
it comes to null just if it is reported fails for a null row alone.  There is none of a plain value,
and none if the active schema is a record; a plain value may be checked with any schema here, other
records are with the active one. -/
theorem decode_reports {a₀ a : ActiveSchema} {d : Option String} {s p : Avro.Schema}
    (hactive : a₀.observe d = (.ok true, a)) (hs : a.schema = some s) (hp : a.projection = some p)
    (earlier : List Value) (fieldName : String) (r : Record)
    (hschema : r.encoding ≠ .primitive → schema = s)
    {out : Outcome} (hout : decode fieldName r schema (worn p earlier) = out) :
    (∀ row, IsRow fieldName r schema (worn p earlier) row → out.row = row ∧ out.log = []) ∧
    ((∀ row, ¬IsRow fieldName r schema (worn p earlier) row) →
      out.row = .null ∧ ∃ cause, out.log = [complaint r cause]) ∧
    ((out.row = .null ↔ out.log.map Log.Entry.level = [.warning]) ↔
      ¬IsRow fieldName r schema (worn p earlier) .null) ∧
    (IsRow fieldName r schema (worn p earlier) .null → s.isRecord = false ∧
      (r.encoding = .binary ∧ r.payload = .null ∧ s.fits .null = .ok true ∨
        r.encoding = .json ∧ out.projection.fits .null = .ok true)) := by
  subst hout
  refine ⟨fun row => decode_of_isRow, decode_of_rowless, ?_, fun hnull => ?_⟩
  · constructor
    · intro hreported hnull
      obtain ⟨hrow, hlog⟩ := decode_of_isRow hnull
      have hone := hreported.mp hrow
      rw [hlog] at hone
      cases hone
    · intro hnull
      by_cases hsome : ∃ row, IsRow fieldName r schema (worn p earlier) row
      · obtain ⟨row, hrow⟩ := hsome
        obtain ⟨heq, hlog⟩ := decode_of_isRow hrow
        rw [heq, hlog]
        refine ⟨fun h => ?_, nofun⟩
        subst h
        exact absurd hrow hnull
      · obtain ⟨hrow, cause, hlog⟩ := decode_of_rowless fun row hrow => hsome ⟨row, hrow⟩
        rw [hrow, hlog]
        exact ⟨fun _ => rfl, fun _ => rfl⟩
  · obtain ⟨hencoding, hpayload, hfits, hrecord⟩ | ⟨hencoding, hfits, hrecord⟩ := isRow_null hnull
    · have hsame : schema = s := hschema (by rw [hencoding]; nofun)
      subst hsame
      exact ⟨hrecord, .inl ⟨hencoding, hpayload, hfits⟩⟩
    · refine ⟨Bool.eq_false_iff.mpr fun hs' => ?_, .inr ⟨hencoding, hfits⟩⟩
      rw [worn_isRecord, ActiveSchema.observe_isRecord hactive hs hp hs'] at hrecord
      cases hrecord

/-- What a descriptor makes active that comes first: the schema and its projection. -/
def firstActive? (d : Option String) : Option (ActiveSchema × Avro.Schema × Avro.Schema) :=
  match ActiveSchema.none.observe d with
  | (.ok true, a) => do
    let s ← a.schema
    let p ← a.projection
    pure (a, s, p)
  | _ => none

theorem of_firstActive? {d : Option String} {a : ActiveSchema} {s p : Avro.Schema}
    (h : firstActive? d = some (a, s, p)) : ActiveSchema.none.observe d = (.ok true, a) ∧
      a.schema = some s ∧ a.projection = some p := by
  unfold firstActive? at h
  split at h
  · rename_i a' hactive
    obtain ⟨s', hs, h⟩ := Option.bind_eq_some_iff.mp h
    obtain ⟨p', hp, h⟩ := Option.bind_eq_some_iff.mp h
    cases h
    exact ⟨hactive, hs, hp⟩
  · cases h

/-- A binary record without an id. -/
def binaryRecord (payload : Value) : Record := ⟨none, .binary, payload, .null⟩

/-- A number is a row of the type of numbers.  A text is none, and it is reported. -/
theorem text_for_number_reported : ∃ a s p,
    ActiveSchema.none.observe (some "long") = (.ok true, a) ∧
    a.schema = some s ∧ a.projection = some p ∧
    (decode "message" (binaryRecord (.int 7)) s p).log = [] ∧
    ∃ cause, (decode "message" (binaryRecord (.str "7")) s p).log =
      [complaint (binaryRecord (.str "7")) cause] := by
  have h : (firstActive? (some "long")).any (fun x =>
      Except.passes (· == true) (x.2.1.fits (.int 7)) &&
        Except.passes (· == false) (x.2.1.fits (.str "7"))) = true := by
    decide +kernel
  obtain ⟨⟨a, s, p⟩, hx, h⟩ := (Option.any_eq_true _ _).mp h
  obtain ⟨hactive, hs, hp⟩ := of_firstActive? hx
  obtain ⟨hnumber, htext⟩ := Bool.and_eq_true_iff.mp h
  obtain ⟨b, hfits, hb⟩ := Except.of_passes hnumber
  obtain ⟨c, hunfit, hc⟩ := Except.of_passes htext
  rw [beq_iff_eq] at hb hc
  subst hb
  subst hc
  refine ⟨a, s, p, hactive, hs, hp, ?_, ?_⟩
  · have hdecode := decode_reports hactive hs hp [] "message" (binaryRecord (.int 7))
      (fun _ => rfl) rfl
    exact (hdecode.1 (.int 7) ⟨rfl, hfits⟩).2
  · have hdecode := decode_reports hactive hs hp [] "message" (binaryRecord (.str "7"))
      (fun _ => rfl) rfl
    refine (hdecode.2.1 fun row hrow => ?_).2
    obtain ⟨rfl, htrue⟩ := hrow
    have htrue : s.fits (.str "7") = .ok true := htrue
    rw [hunfit] at htrue
    cases htrue

/-- A document of null. -/
def nullDocument : Record := ⟨none, .json, .str "null", .null⟩

/-- Null is read from a document of the type of nulls.  It is not reported, and yet taken for no
row. -/
theorem null_passed_over : ∃ a s p,
    ActiveSchema.none.observe (some "\"null\"") = (.ok true, a) ∧
    a.schema = some s ∧ a.projection = some p ∧ IsRow "message" nullDocument s p .null ∧
    (decode "message" nullDocument s p).row = .null ∧
    (decode "message" nullDocument s p).log = [] := by
  have h : (firstActive? (some "\"null\"")).any (fun x =>
      Except.passes Value.isNull (json nullDocument.payload x.2.2).1) = true := by
    decide +kernel
  obtain ⟨⟨a, s, p⟩, hx, h⟩ := (Option.any_eq_true _ _).mp h
  obtain ⟨hactive, hs, hp⟩ := of_firstActive? hx
  obtain ⟨row, hrow, hnull⟩ := Except.of_passes h
  cases row with
  | null => exact ⟨a, s, p, hactive, hs, hp, hrow, decode_of_isRow (r := nullDocument) hrow⟩
  | _ => cases hnull

end Decoder
end StreamTable
