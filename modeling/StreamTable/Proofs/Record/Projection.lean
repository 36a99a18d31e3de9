/-
Rows of documents and the active schema.  A document is read against the projection of the active
schema, and its row is checked with that; storage checks the row once more, with the active schema.
A row that fits the projection is not refused by the schema, if no union in it is empty.  It is
taken if, besides, no union offers a choice: else the check of an earlier branch may break off.

The projection is not what it was once a document was read with it, for reading may change the
defaults of fields.  So the row must fit the projection as the descriptor says it.
-/
import StreamTable.Proofs.Avro.Document.Reader
import StreamTable.Proofs.Avro.Fitting
import StreamTable.Proofs.Avro.Settled
import StreamTable.Proofs.Record.ActiveSchema
import StreamTable.Proofs.Store.SchemaChange
import StreamTable.Record.Decoder

namespace StreamTable

open Store.Writer (after create Takes takes_iff)

/-! ## Rows of documents -/

namespace Decoder

variable {payload : Value} {projection : Avro.Schema}

/-- The last step, by which a value that was read becomes a document. -/
theorem document_regular {v document : Value} (h : (match Json.document? v with
    | some d => Except.ok d
    | none => .error (Failure.data .wrongType)) = .ok document) : document.Regular := by
  cases hdocument : Json.document? v with
  | none =>
    rw [hdocument] at h
    cases h
  | some d =>
    rw [hdocument] at h
    cases h
    exact Json.document?_regular hdocument

theorem documentOf_regular {document : Value} (h : documentOf payload = .ok document) :
    document.Regular := by
  simp only [documentOf, pure_bind] at h
  -- every step before the last one fails or hands a value on
  repeat' first | exact document_regular h | cases h | split at h

theorem rowOf_regular {document : Value} (hdocument : document.Regular)
    (hprojection : projection.Regular) :
    (∀ row, (rowOf document projection).1 = .ok row → row.Regular) ∧
      (rowOf document projection).2.Regular := by
  unfold rowOf
  cases hsettle : projection.settle with
  | error fault =>
    dsimp only
    split
    · exact ⟨nofun, hprojection⟩
    · exact ⟨nofun, hprojection⟩
  | ok settled =>
    obtain ⟨hrow, hdefaults⟩ :=
      Avro.Document.readRow_regular (Avro.Schema.settle_regular hsettle hprojection) hdocument
    have hworn := Avro.Schema.withDefaults_regular hprojection hdefaults
    dsimp only
    split
    · split
      · exact ⟨nofun, hworn⟩
      · exact ⟨nofun, hworn⟩
    · rename_i row hread
      split
      · refine ⟨fun row' h => ?_, hworn⟩
        cases h
        exact hrow row hread
      · exact ⟨nofun, hworn⟩
      · exact ⟨nofun, hworn⟩

theorem json_regular (payload : Value) (hprojection : projection.Regular) :
    (∀ row, (json payload projection).1 = .ok row → row.Regular) ∧
      (json payload projection).2.Regular := by
  unfold json
  cases hdocument : documentOf payload with
  | error f => exact ⟨nofun, hprojection⟩
  | ok document => exact rowOf_regular (documentOf_regular hdocument) hprojection

/-- The row that is found fits the projection as reading left it. -/
theorem rowOf_fits {document row : Value} (h : (rowOf document projection).1 = .ok row) :
    (rowOf document projection).2.fits row = .ok true := by
  unfold rowOf at h ⊢
  cases hsettle : projection.settle with
  | error fault =>
    rw [hsettle] at h
    dsimp only at h
    split at h <;> cases h
  | ok settled =>
    rw [hsettle] at h
    dsimp only at h ⊢
    split at h
    · split at h <;> cases h
    · split at h
      · rename_i hfits
        cases h
        exact hfits
      · cases h
      · cases h

theorem json_fits {row : Value} (h : (json payload projection).1 = .ok row) :
    (json payload projection).2.fits row = .ok true := by
  unfold json at h ⊢
  cases hdocument : documentOf payload with
  | error f =>
    rw [hdocument] at h
    cases h
  | ok document =>
    rw [hdocument] at h
    exact rowOf_fits h

/-- The projection after payloads were read with it. -/
def worn (projection : Avro.Schema) (payloads : List Value) : Avro.Schema :=
  payloads.foldl (fun p payload => (json payload p).2) projection

theorem worn_regular (payloads : List Value) (h : projection.Regular) :
    (worn projection payloads).Regular := by
  induction payloads generalizing projection with
  | nil => exact h
  | cons payload payloads ih => exact ih (json_regular payload h).2

/-- A row of a JSON record is that of its payload, and it fits the projection that reading left. -/
theorem decode_json {fieldName : String} {r : Record} {schema : Avro.Schema} {out : Outcome}
    (h : decode fieldName r schema projection = out) (hjson : r.encoding = .json)
    (hrow : out.row ≠ .null) :
    (json r.payload projection).1 = .ok out.row ∧ out.projection.fits out.row = .ok true := by
  have hattempt : attempt fieldName r schema projection = json r.payload projection := by
    rw [attempt, hjson]
  rw [decode, hattempt] at h
  rcases hread : json r.payload projection with ⟨row | row, projection'⟩
  · rw [hread] at h
    cases h
    exact absurd rfl hrow
  · have hfits := json_fits (congrArg Prod.fst hread)
    rw [hread] at h hfits
    cases h
    exact ⟨rfl, hfits⟩

end Decoder

/-! ## The projection of the active schema -/

namespace ActiveSchema

/-- What is known of a schema and its projection as a descriptor says them. -/
structure Projects (s p : Avro.Schema) : Prop where
  schema : s.Regular
  projection : p.Regular
  settled : ∀ {t t'}, s.settle = .ok t → p.settle = .ok t' → t' = t.stripped

theorem activate_projects {a a' : ActiveSchema} {d : Option String} (h : a.activate d = .ok a') :
    ∃ s p, a'.schema = some s ∧ a'.projection = some p ∧ Projects s p := by
  obtain ⟨node, hload, h⟩ := Except.of_bind_ok h
  obtain ⟨s, hs, h⟩ := Except.of_bind_ok h
  obtain ⟨node', hnode', h⟩ := Except.of_bind_ok h
  obtain ⟨p, hp, h⟩ := Except.of_bind_ok h
  cases h
  have hnode := Avro.Descriptor.load_regular hload
  have hstrip := Except.ok_of_mapError hnode'
  have hs := parse_of_schemaOf hs
  have hp := parse_of_schemaOf hp
  exact ⟨s, p, rfl, rfl, Avro.Schema.parse_regular hs hnode,
    Avro.Schema.parse_regular hp (Avro.NullFree.strip_regular hstrip hnode),
    Avro.Schema.settle_stripped hnode hs hstrip hp⟩

theorem observe_projects {a a' : ActiveSchema} {d : Option String} {s p : Avro.Schema}
    (h : a.observe d = (.ok true, a')) (hs : a'.schema = some s) (hp : a'.projection = some p) :
    Projects s p := by
  have hchanged : a.isChanged d = true := (observe_ok h).symm
  cases ha : a.activate d with
  | error f =>
    rw [observe_of_refused hchanged ha] at h
    cases h
  | ok a₁ =>
    rw [observe_of_activate hchanged ha] at h
    cases h
    obtain ⟨s', p', hs', hp', hprojects⟩ := activate_projects ha
    rw [hs] at hs'
    rw [hp] at hp'
    cases hs'
    cases hp'
    exact hprojects

end ActiveSchema

namespace Decoder

open ActiveSchema (Projects)

variable {s p t : Avro.Schema} {row : Value}

/-! ## A table that is opened with a first descriptor -/

/-- Whether a record gave a row, and one that fits a projection. -/
def Outcome.isProjected (out : Outcome) (p : Avro.Schema) : Bool :=
  !out.row.isNull && Except.passes (· == true) (p.fits out.row)

theorem of_isProjected {out : Outcome} (h : out.isProjected p = true) :
    out.row ≠ .null ∧ p.fits out.row = .ok true := by
  obtain ⟨hrow, hfits⟩ := Bool.and_eq_true_iff.mp h
  obtain ⟨b, hfits, htrue⟩ := Except.of_passes hfits
  rw [beq_iff_eq] at htrue
  subst htrue
  refine ⟨fun hnull => ?_, hfits⟩
  rw [hnull] at hrow
  cases hrow

/-- What there is once a first descriptor was accepted and a table was opened for its rows. -/
structure Outset where
  active : ActiveSchema
  schema : Avro.Schema
  projection : Avro.Schema
  settled : Avro.Schema
  writer : Store.Writer

def outset? (node : Value) : Option Outset := do
  let (.ok true, active) := ActiveSchema.none.observe (Json.print? node) | none
  let schema ← active.schema
  let projection ← active.projection
  let .ok settled := schema.settle | none
  let .ok writer := ((create ⟨.ofText "lake", "rows"⟩ (.str "null") schema).run .empty).result
    | none
  pure ⟨active, schema, projection, settled, writer⟩

namespace Outset

/-- How the text of a node led to what there is. -/
structure Of (node : Value) (x : Outset) : Prop where
  active : ActiveSchema.none.observe (Json.print? node) = (.ok true, x.active)
  schema : x.active.schema = some x.schema
  projection : x.active.projection = some x.projection
  settled : x.schema.settle = .ok x.settled
  writer : ((create ⟨.ofText "lake", "rows"⟩ (.str "null") x.schema).run .empty).result =
    .ok x.writer

theorem of_outset? {node : Value} {x : Outset} (h : outset? node = some x) : x.Of node := by
  unfold outset? at h
  split at h
  · rename_i active hactive
    obtain ⟨schema, hschema, h⟩ := Option.bind_eq_some_iff.mp h
    obtain ⟨projection, hprojection, h⟩ := Option.bind_eq_some_iff.mp h
    split at h
    · rename_i settled hsettled
      split at h
      · rename_i writer hwriter
        cases h
        exact ⟨hactive, hschema, hprojection, hsettled, hwriter⟩
      · cases h
    · cases h
  · cases h

/-- What comes of a JSON record after payloads were read. -/
def outcome (x : Outset) (earlier : List Value) (payload : Value) : Outcome :=
  decode "value" ⟨none, .json, payload, .null⟩ x.schema (worn x.projection earlier)

end Outset

/-- The node of a record. -/
def recordNode (name : String) (fields : List (String × Value)) : Value :=
  Value.ofFields [("type", .str "record"), ("name", .str name),
    ("fields", .list (fields.map fun f => Value.ofFields [("name", .str f.1), ("type", f.2)]))]

/-! ## Rows that the active schema takes -/

/-- A regular row that fits the projection is not refused by the schema, and fits it if no union
offers a choice. -/
theorem fits_of_projects (h : Projects s p) (ht : s.settle = .ok t) (hfull : t.isPopulated = true)
    (hrow : row.Regular) (hfits : p.fits row = .ok true) :
    s.fits row ≠ .ok false ∧ (t.isDecided = true → s.fits row = .ok true) := by
  have hregular := Avro.Schema.settle_regular ht h.schema
  refine ⟨fun hrefused => ?_, fun hone => ?_⟩
  · obtain ⟨r, hr, hs⟩ := Avro.Schema.fits_of_stripped Avro.Validation.verdict_notRefused hregular
      hfull (.inl trivial) hrow ht (fun _ => h.settled ht) hfits
    rw [hs] at hrefused
    exact hr (Except.ok_of_mapError hrefused)
  · obtain ⟨r, hr, hs⟩ := Avro.Schema.fits_of_stripped Avro.Validation.verdict_accepted hregular
      hfull (.inr hone) hrow ht (fun _ => h.settled ht) hfits
    rw [hs, hr]
    rfl

/-- Rows are checked alike with a schema and with what stands for it, if that stands for itself. -/
theorem fits_settled (ht : s.settle = .ok t) (hsame : t.settle = .ok t) (row : Value) :
    t.fits row = s.fits row := by
  rw [Avro.Schema.fits, Avro.Schema.fits, ht, hsame]

/-- What is taken of a JSON record by the active schema, and by a writer that was opened with it.
`earlier` are the payloads that were read with the projection before.  If the row fits the
projection as the descriptor says it, and no union of the schema is empty, the row is not refused:
it is taken unless its check breaks off.  The check does not break off if no union of the schema
offers a choice.  A writer reads its schema once more whenever it checks a row, and a record or a
schema that was read from its node stays the same then. -/
theorem row_fits_active_schema {a₀ a : ActiveSchema} {d : Option String}
    (hactive : a₀.observe d = (.ok true, a)) (hs : a.schema = some s) (hp : a.projection = some p)
    (ht : s.settle = .ok t) (hfull : t.isPopulated = true) (earlier : List Value)
    {fieldName : String} {r : Record} {out : Outcome} (hjson : r.encoding = .json)
    (hout : decode fieldName r s (worn p earlier) = out) (hrow : out.row ≠ .null)
    (hfits : out.projection = p ∨ p.fits out.row = .ok true) :
    s.fits out.row ≠ .ok false ∧ (t.isDecided = true → s.fits out.row = .ok true) ∧
      ∀ {table : Store.Table} {codec : Value} {disk : Store.Disk} {w : Store.Writer},
        ((create table codec s).run disk).result = .ok w →
        (s.isRecord = true ∨ s.isChecked = true ∧ ∃ t', t.settle = .ok t') →
        ∀ (calls : List Store.Writer.Call) (disk' : Store.Disk),
          ((Store.Writer.write out.row).run (after calls (w, disk'))).result ≠ .error .invalidRow ∧
          ((after calls (w, disk')).1.closed = false →
            (Takes (after calls (w, disk')) out.row ↔ ∀ f, s.fits out.row ≠ .error f) ∧
            (t.isDecided = true → Takes (after calls (w, disk')) out.row)) := by
  have hprojects := ActiveSchema.observe_projects hactive hs hp
  obtain ⟨hread, hworn⟩ := decode_json hout hjson hrow
  have hregular := (json_regular r.payload (worn_regular earlier hprojects.projection)).1 _ hread
  have hfits : p.fits out.row = .ok true := by
    obtain hsame | hfits := hfits
    · rw [← hsame]
      exact hworn
    · exact hfits
  obtain ⟨hkept, htaken⟩ := fits_of_projects hprojects ht hfull hregular hfits
  refine ⟨hkept, htaken, fun {table codec disk w} hopened hstays calls disk' => ?_⟩
  have hsame : t.settle = .ok t := by
    obtain hrecord | ⟨hchecked, t', ht'⟩ := hstays
    · exact Avro.Schema.settle_of_isRecord hrecord ht
    · rw [ht', Avro.Schema.settle_again hprojects.schema hchecked ht ht']
  have hwriter : (after calls (w, disk')).1.schema.fits out.row = s.fits out.row := by
    have hopening : (after calls (w, disk')).1.schema = w.schema :=
      congrArg Prod.fst (Store.Writer.after_opening calls (w, disk'))
    have hschema : t = w.schema :=
      Except.ok.inj (ht.symm.trans (Store.Writer.create_ok hopened).1)
    rw [hopening, ← hschema, fits_settled ht hsame]
  refine ⟨fun hrefused => hkept ?_, fun hopen => ?_⟩
  · rw [← hwriter]
    exact Store.Writer.write_of_refused hrefused
  · rw [takes_iff hopen, hwriter]
    refine ⟨⟨fun hok f hf => ?_, fun hends => ?_⟩, htaken⟩
    · rw [hok] at hf
      cases hf
    · match hchecked : s.fits out.row with
      | .ok true => rfl
      | .ok false => exact absurd hchecked hkept
      | .error f => exact absurd hchecked (hends f)

/-- Rows with a text that may be missing. -/
def optionalNode : Value := recordNode "Row" [("x", .list [.str "null", .str "string"])]

/-- A document that is refused does not keep the next one from its place in the table. -/
theorem optional_text_taken : ∃ x : Outset, x.Of optionalNode ∧
    let out := x.outcome [Value.ofFields [("x", .int 1)]] (Value.ofFields [("x", .str "a")])
    out.row ≠ .null ∧ Takes (after [.updateSchema x.schema] (x.writer, .empty)) out.row := by
  have h : (outset? optionalNode).any (fun x =>
      let out := x.outcome [Value.ofFields [("x", .int 1)]] (Value.ofFields [("x", .str "a")])
      out.isProjected x.projection && x.settled.isPopulated && x.settled.isDecided &&
        x.schema.isRecord &&
        !(after [.updateSchema x.schema] (x.writer, .empty)).1.closed) = true := by
    decide +kernel
  obtain ⟨x, hx, h⟩ := (Option.any_eq_true _ _).mp h
  have hof := Outset.of_outset? hx
  simp only [Bool.and_eq_true, Bool.not_eq_true'] at h
  obtain ⟨⟨⟨⟨hdecoded, hfull⟩, hone⟩, hrecord⟩, hopen⟩ := h
  obtain ⟨hrow, hfits⟩ := of_isProjected hdecoded
  obtain ⟨-, -, hwriter⟩ := row_fits_active_schema hof.active hof.schema hof.projection hof.settled
    hfull [Value.ofFields [("x", .int 1)]] rfl rfl hrow (.inr hfits)
  exact ⟨x, hof, hrow, ((hwriter hof.writer (.inl hrecord) _ _).2 hopen).2 hone⟩

/-- Two records that differ in what may be null and in what is kept as a day. -/
def choiceNode : Value := recordNode "Row" [("x", .list [
  recordNode "Dated" [("a", .list [.str "null", .str "int"]),
    ("day", PlainValue.logicalNode "int" "date")],
  recordNode "Noted" [("a", .str "null"), ("day", .str "string")]])]

def notedDocument : Value := Value.ofFields [("x", Value.ofFields [("Noted",
  Value.ofFields [("a", .null), ("day", .str "soon")])])]

/-- Rows that are decoded and fit the projection, and that the schema does not take.  A union
without branches holds no null, but its projection is the null type, so that a null there is
refused, by the schema and by a new writer.  And where no union is empty, a row that fits the second
branch of a union breaks the check of the first, which without nulls would not get as far as the
day. -/
theorem projected_rows_not_taken :
    (∃ x : Outset, x.Of (recordNode "Row" [("x", .list [])]) ∧
      let out := x.outcome [] (Value.ofFields [("x", .null)])
      out.row ≠ .null ∧ x.projection.fits out.row = .ok true ∧ x.schema.fits out.row = .ok false ∧
        ¬Takes (x.writer, .empty) out.row) ∧
    ∃ s t node p, Avro.Schema.parse choiceNode = .ok s ∧
      Avro.NullFree.strip choiceNode = .ok node ∧ Avro.Schema.parse node = .ok p ∧
      s.settle = .ok t ∧ t.isPopulated = true ∧
      let out := decode "value" ⟨none, .json, notedDocument, .null⟩ s p
      out.row ≠ .null ∧ p.fits out.row = .ok true ∧ ∃ f, s.fits out.row = .error f := by
  constructor
  · have h : (outset? (recordNode "Row" [("x", .list [])])).any (fun x =>
        let out := x.outcome [] (Value.ofFields [("x", .null)])
        out.isProjected x.projection && Except.passes (· == false) (x.schema.fits out.row) &&
          Except.passes (· == false) (x.writer.schema.fits out.row) && !x.writer.closed) = true := by
      decide +kernel
    obtain ⟨x, hx, h⟩ := (Option.any_eq_true _ _).mp h
    simp only [Bool.and_eq_true, Bool.not_eq_true'] at h
    obtain ⟨⟨⟨hdecoded, hschema⟩, hwriter⟩, hopen⟩ := h
    obtain ⟨hrow, hfits⟩ := of_isProjected hdecoded
    obtain ⟨_, hschema, hfalse⟩ := Except.of_passes hschema
    obtain ⟨_, hwriter, hfalse'⟩ := Except.of_passes hwriter
    rw [beq_iff_eq] at hfalse hfalse'
    subst hfalse hfalse'
    refine ⟨x, Outset.of_outset? hx, hrow, hfits, hschema, fun htakes => ?_⟩
    rw [takes_iff (x := (x.writer, .empty)) hopen, hwriter] at htakes
    cases htakes
  · have h : Except.passes (fun s => Except.passes (fun t => Except.passes (fun node =>
        Except.passes (fun p =>
          let out := decode "value" ⟨none, .json, notedDocument, .null⟩ s p
          t.isPopulated && out.isProjected p && !Except.passes (fun _ => true) (s.fits out.row))
        (Avro.Schema.parse node)) (Avro.NullFree.strip choiceNode)) s.settle)
        (Avro.Schema.parse choiceNode) = true := by
      decide +kernel
    obtain ⟨s, hs, h⟩ := Except.of_passes h
    obtain ⟨t, ht, h⟩ := Except.of_passes h
    obtain ⟨node, hnode, h⟩ := Except.of_passes h
    obtain ⟨p, hp, h⟩ := Except.of_passes h
    simp only [Bool.and_eq_true, Bool.not_eq_true'] at h
    obtain ⟨⟨hfull, hdecoded⟩, hbroken⟩ := h
    obtain ⟨hrow, hfits⟩ := of_isProjected hdecoded
    refine ⟨s, t, node, p, hs, hnode, hp, ht, hfull, hrow, hfits, ?_⟩
    cases hschema : s.fits (decode "value" ⟨none, .json, notedDocument, .null⟩ s p).row with
    | ok b =>
      rw [hschema] at hbroken
      cases hbroken
    | error f => exact ⟨f, rfl⟩

end Decoder
end StreamTable
