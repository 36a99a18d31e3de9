/-
Writers that are kept across a change of the schema.  A writer checks rows against the schema that
it was opened with, whatever it was told of since, and it asks to be replaced only if the
canonical form has changed.  So a writer that is kept takes the rows of the new schema just when
they fit the old one.  They do if both schemas have one shape.  Equal canonical forms are not
enough for that.
-/
import StreamTable.Proofs.Action.Preserve
import StreamTable.Proofs.Avro.Shape
import StreamTable.Proofs.Store.Commit
import StreamTable.Record.PlainValue

namespace StreamTable
namespace Store
namespace Writer

open StreamTable.Action

/-! ## Calls -/

/-- What can be asked of a writer once it is open. -/
inductive Call where
  | updateSchema (schema : Avro.Schema)
  | write (row : Value)
  | flush
  | close

def Call.perform : Call → Action (Writer × Disk) Unit
  | .updateSchema schema => do let _ ← Writer.updateSchema schema
  | .write row => Writer.write row
  | .flush => do let _ ← Writer.flush
  | .close => Writer.close

/-- A writer and the disk after some calls, each of which may fail. -/
def after : List Call → Writer × Disk → Writer × Disk
  | [], x => x
  | c :: calls, x => after calls (c.perform.run x).state

/-- What a writer was opened with. -/
def opening (x : Writer × Disk) : Avro.Schema × String := (x.1.schema, x.1.fingerprint)

theorem flush_opening : flush.Preserves opening := fun x =>
  (congrArg (fun w : Writer => (w.schema, w.fingerprint)) (flush_writer x) :)

theorem updateSchema_state (schema : Avro.Schema) (x : Writer × Disk) :
    ((updateSchema schema).run x).state = x := by
  have hsame : (updateSchema schema).Preserves id :=
    Preserves.bind preserves_get fun _ => Preserves.bind (preserves_lift _) fun _ =>
      preserves_pure _
  exact hsame x

theorem updateSchema_opening (schema : Avro.Schema) : (updateSchema schema).Preserves opening :=
  fun x => congrArg opening (updateSchema_state schema x)

theorem write_opening (row : Value) : (write row).Preserves opening := by
  refine Preserves.bind preserves_get fun _ => preserves_ite (preserves_fail _) ?_
  exact Preserves.bind (preserves_lift _) fun _ =>
    preserves_ite (preserves_modify fun _ => rfl) (preserves_fail _)

theorem close_opening : close.Preserves opening := by
  refine Preserves.bind preserves_get fun _ => preserves_ite (preserves_pure ()) ?_
  have hclosed : Preserves opening
      (modify fun x : Writer × Disk => ({ x.1 with closed := true }, x.2)) :=
    preserves_modify fun _ => rfl
  refine Preserves.bind flush_opening fun _ => preserves_ite ?_ hclosed
  exact Preserves.bind (preserves_log _) fun _ => Preserves.bind (preserves_modify fun _ => rfl)
    fun _ => hclosed

theorem perform_opening (c : Call) : c.perform.Preserves opening := by
  cases c with
  | updateSchema schema =>
    exact Preserves.bind (updateSchema_opening schema) fun _ => preserves_pure ()
  | write row => exact write_opening row
  | flush => exact Preserves.bind flush_opening fun _ => preserves_pure ()
  | close => exact close_opening

/-- No call changes the schema of a writer, nor its fingerprint. -/
theorem after_opening (calls : List Call) (x : Writer × Disk) :
    opening (after calls x) = opening x := by
  induction calls generalizing x with
  | nil => rfl
  | cons c calls ih => exact (ih _).trans (perform_opening c x)

/-! ## Rows of a new schema -/

/-- A row is taken: it is put behind the rows in the buffer. -/
def Takes (x : Writer × Disk) (row : Value) : Prop :=
  ((write row).run x).result = .ok () ∧
    ((write row).run x).state = ({ x.1 with buffer := x.1.buffer ++ [row] }, x.2)

variable {x : Writer × Disk}

theorem write_of_fits {row : Value} (hopen : x.1.closed = false)
    (hfits : x.1.schema.fits row = .ok true) :
    (write row).run x = ⟨.ok (), ({ x.1 with buffer := x.1.buffer ++ [row] }, x.2), []⟩ := by
  rw [write, run_bind_of_ok (run_get x)]
  dsimp only
  rw [if_neg (by rw [hopen]; exact Bool.false_ne_true), hfits]
  rfl

/-- An open writer takes the rows that fit the schema it was opened with. -/
theorem takes_iff (hopen : x.1.closed = false) (row : Value) :
    Takes x row ↔ x.1.schema.fits row = .ok true := by
  constructor
  · rintro ⟨htaken, -⟩
    rw [write, run_bind_of_ok (run_get x)] at htaken
    dsimp only at htaken
    rw [if_neg (by rw [hopen]; exact Bool.false_ne_true)] at htaken
    rcases hfits : x.1.schema.fits row with f | _ | _
    · rw [hfits] at htaken
      cases htaken
    · rw [hfits] at htaken
      cases htaken
    · rfl
  · intro hfits
    rw [Takes, write_of_fits hopen hfits]
    exact ⟨rfl, rfl⟩

/-- A row is refused by an open writer only if it does not fit. -/
theorem write_of_refused {row : Value} (h : ((write row).run x).result = .error .invalidRow) :
    x.1.schema.fits row = .ok false := by
  rw [write, run_bind_of_ok (run_get x)] at h
  dsimp only at h
  split at h
  · cases h
  · rcases hfits : x.1.schema.fits row with f | _ | _
    · rw [hfits] at h
      have hf : f = .invalidRow := Except.error.inj h
      rw [hf, Avro.Schema.fits] at hfits
      split at hfits
      · cases hfits
      · generalize Avro.Validation.check _ _ _ _ _ = checked at hfits
        cases checked <;> cases hfits
    · rfl
    · rw [hfits] at h
      cases h

/-- A writer is kept just when the fingerprint of the schema is its own. -/
theorem updateSchema_kept (schema : Avro.Schema) (x : Writer × Disk) :
    ((updateSchema schema).run x).result = .ok false ↔
      fingerprintOf schema = .ok x.1.fingerprint := by
  rw [updateSchema, run_bind_of_ok (run_get x)]
  dsimp only
  cases hf : fingerprintOf schema with
  | ok fingerprint =>
    rw [run_bind_of_ok (run_lift _ x)]
    simp
  | error f =>
    rw [run_bind_of_error (run_lift _ x)]
    simp

/-- What a writer was opened with is the schema that was given, as rows are checked with it. -/
theorem create_ok {t : Table} {codec : Value} {schema : Avro.Schema} {d : Disk} {w : Writer}
    (h : ((create t codec schema).run d).result = .ok w) :
    schema.settle = .ok w.schema ∧ w.schema.fingerprint = .ok w.fingerprint := by
  have hends : (create t codec schema).Ends d
      (fun w _ => schema.settle = .ok w.schema ∧ w.schema.fingerprint = .ok w.fingerprint)
      (fun _ _ => True) := by
    simp only [create, ends_bind, ends_get, ends_modify, ends_pure]
    rw [ends_lift]
    refine ⟨fun settled hsettled => ?_, fun _ _ => trivial⟩
    rw [ends_lift]
    refine ⟨fun fingerprint hfingerprint => ?_, fun _ _ => trivial⟩
    rw [ends_lift]
    refine ⟨fun _ _ => ?_, fun _ _ => trivial⟩
    exact ⟨Except.ok_of_mapError hsettled, Except.ok_of_mapError hfingerprint⟩
  rw [Ends, h] at hends
  exact hends

/-- A writer is kept if its schema and the new one have one shape. -/
theorem kept_of_sameShape {t : Table} {codec : Value} {s₁ s₂ t₂ : Avro.Schema} {d : Disk}
    {w : Writer} (hopened : ((create t codec s₁).run d).result = .ok w) (hs₂ : s₂.settle = .ok t₂)
    (h : w.schema.SameShape t₂) (calls : List Call) (d' : Disk) :
    ((updateSchema s₂).run (after calls (w, d'))).result = .ok false := by
  have hfingerprint : fingerprintOf s₂ = .ok w.fingerprint := by
    rw [fingerprintOf, hs₂]
    show Except.mapError Failure.schema t₂.fingerprint = _
    rw [← h.fingerprint_eq, (create_ok hopened).2]
    rfl
  have hsame : (after calls (w, d')).1.fingerprint = w.fingerprint :=
    congrArg Prod.snd (after_opening calls (w, d'))
  rw [updateSchema_kept, hfingerprint, hsame]

/-- A writer that was opened with one schema and is told of another goes by the fingerprints alone.
If it is kept it takes all rows of the new schema just when they fit its own.  If the two schemas
have one shape, it is kept and takes just the rows of the new schema; to be kept, it needs the new
schema to stand for itself once it is read, as every record does. -/
theorem kept_takes_rows_iff {t : Table} {codec : Value} {s₁ : Avro.Schema} {d : Disk} {w : Writer}
    (hopened : ((create t codec s₁).run d).result = .ok w) (calls : List Call) (d' : Disk)
    (hopen : (after calls (w, d')).1.closed = false) (s₂ : Avro.Schema) :
    let told := (updateSchema s₂).run (after calls (w, d'))
    s₁.settle = .ok w.schema ∧
      ((told.result = .ok false → ∀ row, s₂.fits row = .ok true → Takes told.state row) ↔
        (fingerprintOf s₂ = .ok w.fingerprint → ∀ row, s₂.fits row = .ok true →
          w.schema.fits row = .ok true)) ∧
      (w.schema.SameShape s₂ →
        (∀ t₂, s₂.settle = .ok t₂ → t₂.settle = .ok t₂ → told.result = .ok false) ∧
          ∀ row, Takes told.state row ↔ s₂.fits row = .ok true) := by
  intro told
  have hopening : opening (after calls (w, d')) = opening (w, d') := after_opening calls (w, d')
  have hschema : (after calls (w, d')).1.schema = w.schema := congrArg Prod.fst hopening
  have hfingerprint : (after calls (w, d')).1.fingerprint = w.fingerprint :=
    congrArg Prod.snd hopening
  have hstate : told.state = after calls (w, d') := updateSchema_state s₂ _
  have hkept : told.result = .ok false ↔ fingerprintOf s₂ = .ok w.fingerprint := by
    rw [← hfingerprint]
    exact updateSchema_kept s₂ _
  have htakes : ∀ row, Takes told.state row ↔ w.schema.fits row = .ok true := by
    intro row
    rw [hstate, takes_iff hopen, hschema]
  refine ⟨(create_ok hopened).1, ?_, fun hshape => ⟨fun t₂ hs₂ ht₂ => ?_, fun row => ?_⟩⟩
  · rw [hkept]
    simp only [htakes]
  · exact kept_of_sameShape hopened hs₂ (hshape.of_settled hs₂ ht₂) calls d'
  · rw [htakes, hshape.fits_eq]

/-- A record with a day, which is kept as a number. -/
def plainDay : Avro.Schema := .record false "R" [(⟨.str "day", []⟩, .primitive .int)] []

def documentedDay : Avro.Schema :=
  .record false "R" [(⟨.str "day", []⟩, .annotated .int [Value.entry "doc" (.str "a day")])] []

def firstDay : Value := Value.ofFields [("day", .int 0)]

theorem documented_days_taken : ∃ w,
    ((create ⟨.ofText "lake", "days"⟩ (.str "null") plainDay).run .empty).result = .ok w ∧
      (after [.write firstDay] (w, .empty)).1.closed = false ∧
      let told := (updateSchema documentedDay).run (after [.write firstDay] (w, .empty))
      told.result = .ok false ∧
        ∀ row, Takes told.state row ↔ documentedDay.fits row = .ok true := by
  have hcreate : Except.passes (fun w => (after [.write firstDay] (w, .empty)).1.closed == false)
      ((create ⟨.ofText "lake", "days"⟩ (.str "null") plainDay).run .empty).result = true := by
    decide +kernel
  have hlogical : Avro.Logical.of? .int [Value.entry "doc" (.str "a day")] = none := by
    decide +kernel
  have hshape : plainDay.shape = documentedDay.shape := by
    simp [plainDay, documentedDay, Avro.Schema.shape, Avro.Schema.fieldShapes, hlogical]
  obtain ⟨w, hw, hopen⟩ := Except.of_passes hcreate
  rw [beq_iff_eq] at hopen
  obtain ⟨hsettle, -, hkept⟩ :=
    kept_takes_rows_iff hw [.write firstDay] .empty hopen documentedDay
  have hschema : w.schema = plainDay := Except.ok.inj (hsettle.symm.trans rfl)
  have hsame : w.schema.SameShape documentedDay := by
    rw [hschema]
    exact ⟨plainDay, documentedDay, rfl, rfl, hshape⟩
  obtain ⟨hkept, htakes⟩ := hkept hsame
  exact ⟨w, hw, hopen, hkept documentedDay rfl rfl, htakes⟩

/-- A record with a day, and nothing else. -/
def dayOf (type : Value) : Value :=
  Value.ofFields [("type", .str "record"), ("name", .str "R"),
    ("fields", .list [Value.ofFields [("name", .str "day"), ("type", type)]])]

def leapDay : Value := Value.ofFields [("day", .date ⟨738945, by decide, by decide⟩)]

/-- A writer of bare integers is kept when the integers become dates, and refuses the dates. -/
theorem dates_refused : ∃ s₁ s₂ w,
    Avro.Schema.parse (dayOf (.str "int")) = .ok s₁ ∧
      Avro.Schema.parse (dayOf (PlainValue.logicalNode "int" "date")) = .ok s₂ ∧
      ((create ⟨.ofText "lake", "days"⟩ (.str "null") s₁).run .empty).result = .ok w ∧
      ((updateSchema s₂).run (w, .empty)).result = .ok false ∧
      s₂.fits leapDay = .ok true ∧ ¬Takes (w, .empty) leapDay := by
  have h : Except.passes (fun s₁ => Except.passes (fun s₂ => Except.passes (fun w =>
      Except.passes (· == false) ((updateSchema s₂).run (w, .empty)).result &&
        Except.passes (· == true) (s₂.fits leapDay) &&
        !Except.passes (fun _ => true) ((write leapDay).run (w, .empty)).result)
      ((create ⟨.ofText "lake", "days"⟩ (.str "null") s₁).run .empty).result)
      (Avro.Schema.parse (dayOf (PlainValue.logicalNode "int" "date"))))
      (Avro.Schema.parse (dayOf (.str "int"))) = true := by
    decide +kernel
  obtain ⟨s₁, hs₁, h⟩ := Except.of_passes h
  obtain ⟨s₂, hs₂, h⟩ := Except.of_passes h
  obtain ⟨w, hw, h⟩ := Except.of_passes h
  simp only [Bool.and_eq_true, Bool.not_eq_true'] at h
  obtain ⟨⟨hkept, hfits⟩, hrefused⟩ := h
  obtain ⟨kept, hkept, hfalse⟩ := Except.of_passes hkept
  obtain ⟨fits, hfits, htrue⟩ := Except.of_passes hfits
  rw [beq_iff_eq] at hfalse htrue
  subst hfalse htrue
  refine ⟨s₁, s₂, w, hs₁, hs₂, hw, hkept, hfits, fun htakes => ?_⟩
  rw [htakes.1] at hrefused
  cases hrefused

end Writer
end Store
end StreamTable
