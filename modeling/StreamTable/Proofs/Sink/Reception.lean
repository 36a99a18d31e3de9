/-
Reception: what a loop makes of a record before a table writer hears of it.  A record is skipped
for want of a usable schema, or refused because the loop cannot go on, or admitted with the schema
that its row is stored with.  The verdict depends on the active schema and on the record alone.

How a record is handled is settled by the verdict (`handle_ends`), and an iteration handles a record,
or commits, or fails over the time to wait (`iterate_cases`).
-/
import StreamTable.Proofs.Action.Ends
import StreamTable.Proofs.Record.ActiveSchema
import StreamTable.Sink.Loop

namespace StreamTable

inductive Verdict where
  | skipped
  | refused (f : Failure)
  | admitted (schema : Avro.Schema) (binding : Binding)

/-- Whether a failure is one of taking up a schema. -/
def Failure.isOfSchema : Failure → Bool
  | .descriptor .. | .data _ | .schema _ => true
  | _ => false

/-- The verdict on a record, whether its schema replaced the active one, and which is active. -/
structure Reception where
  verdict : Verdict
  changed : Bool
  active : ActiveSchema

namespace ActiveSchema

/-- The verdict on a record whose schema is active. -/
def judge (a : ActiveSchema) (fieldName : String) (changed : Bool) (r : Record) : Reception :=
  match r.encoding with
  | .primitive =>
    match a.storage fieldName with
    | (.ok (schema, binding), a) => ⟨.admitted schema binding, changed, a⟩
    | (.error f, a) => ⟨.refused f, changed, a⟩
  | _ => ⟨.admitted (a.schema.getD default) a.binding, changed, a⟩

/-- The verdict on a record. -/
def receive (a : ActiveSchema) (fieldName : String) (r : Record) : Reception :=
  if r.isBlank then ⟨.skipped, false, a⟩
  else
    match a.observe r.descriptor with
    | (.ok changed, a) => a.judge fieldName changed r
    | (.error (.descriptor ..), a) => ⟨.skipped, false, a⟩
    | (.error f, a) => ⟨.refused f, false, a⟩

@[simp]
theorem judge_changed (a : ActiveSchema) (fieldName : String) (changed : Bool) (r : Record) :
    (a.judge fieldName changed r).changed = changed := by
  unfold judge
  cases r.encoding with
  | primitive => rcases a.storage fieldName with ⟨_ | _, _⟩ <;> rfl
  | binary => rfl
  | json => rfl

/-- What holds of the active schema before and after it was asked for the record of plain values
holds once a record was judged. -/
theorem judge_keeps {I : ActiveSchema → Prop} {a : ActiveSchema} {fieldName : String}
    (h : I a) (hstorage : I (a.storage fieldName).2) (changed : Bool) (r : Record) :
    I (a.judge fieldName changed r).active := by
  unfold judge
  cases r.encoding with
  | primitive =>
    rcases hs : a.storage fieldName with ⟨_ | _, a'⟩
    · rwa [hs] at hstorage
    · rwa [hs] at hstorage
  | binary => exact h
  | json => exact h

/-! How a record is received once its descriptor was looked at. -/

section Received

variable {a a' : ActiveSchema} {fieldName : String} {r : Record}

theorem receive_of_blank (hb : r.isBlank = true) :
    a.receive fieldName r = ⟨.skipped, false, a⟩ := by
  rw [receive, if_pos hb]

theorem receive_of_refused {fault : DescriptorFault} {text : Option String}
    (hb : r.isBlank = false) (ho : a.observe r.descriptor = (.error (.descriptor fault text), a')) :
    a.receive fieldName r = ⟨.skipped, false, a'⟩ := by
  rw [receive, if_neg (by rw [hb]; exact Bool.false_ne_true), ho]

theorem receive_of_failed {f : Failure} (hb : r.isBlank = false)
    (ho : a.observe r.descriptor = (.error f, a')) (hf : ∀ fault text, f ≠ .descriptor fault text) :
    a.receive fieldName r = ⟨.refused f, false, a'⟩ := by
  rw [receive, if_neg (by rw [hb]; exact Bool.false_ne_true), ho]
  cases f with
  | descriptor fault text => exact absurd rfl (hf fault text)
  | _ => rfl

theorem receive_of_observed {changed : Bool} (hb : r.isBlank = false)
    (ho : a.observe r.descriptor = (.ok changed, a')) :
    a.receive fieldName r = a'.judge fieldName changed r := by
  rw [receive, if_neg (by rw [hb]; exact Bool.false_ne_true), ho]

end Received

/-- A property of active schemas that looking at a descriptor keeps, and asking for the record that
plain values are stored in, and decoding, which may change the projection. -/
structure Stable (fieldName : String) (I : ActiveSchema → Prop) : Prop where
  observe : ∀ {a}, I a → ∀ d, I (a.observe d).2
  storage : ∀ {a}, I a → I (a.storage fieldName).2
  projection : ∀ {a}, I a → ∀ projection, I { a with projection }

theorem Stable.receive {I : ActiveSchema → Prop} {fieldName : String} (hI : Stable fieldName I)
    {a : ActiveSchema} (h : I a) (r : Record) : I (a.receive fieldName r).active := by
  have hobserve := hI.observe h r.descriptor
  cases hb : r.isBlank with
  | true =>
    rw [receive_of_blank hb]
    exact h
  | false =>
    rcases ho : a.observe r.descriptor with ⟨f | changed, a'⟩
    · rw [observe_error ho] at ho
      by_cases hf : ∃ fault text, f = .descriptor fault text
      · obtain ⟨fault, text, rfl⟩ := hf
        rw [receive_of_refused hb ho]
        exact h
      · rw [receive_of_failed hb ho fun fault text he => hf ⟨fault, text, he⟩]
        exact h
    · rw [ho] at hobserve
      rw [receive_of_observed hb ho]
      exact judge_keeps hobserve (hI.storage hobserve) changed r

theorem genuine_stable (fieldName : String) : Stable fieldName Genuine where
  observe h := observe_genuine h
  storage h := storage_genuine h fieldName
  projection h _ := h.of_eq rfl

theorem receive_genuine {a : ActiveSchema} (h : a.Genuine) (fieldName : String) (r : Record) :
    (a.receive fieldName r).active.Genuine := (genuine_stable fieldName).receive h r

end ActiveSchema

/-- A record of a plain value whose descriptor is accepted, but names a type that is no record and
that cannot be wrapped into one. -/
def Record.IsPoisonous (fieldName : String) (r : Record) : Prop :=
  r.encoding = .primitive ∧ ∃ a, ActiveSchema.none.activate r.descriptor = .ok a ∧
    a.isBare = true ∧ ∃ f, a.wrapping fieldName = .error f

namespace ActiveSchema

/-- A blank descriptor is never accepted. -/
theorem activate_ne_ok_of_isBlank {r : Record} (h : r.isBlank = true) (a a' : ActiveSchema) :
    a.activate r.descriptor ≠ .ok a' := by
  intro ha
  obtain ⟨node, schema, projection, hload, -⟩ := activate_ok ha
  unfold Record.isBlank at h
  cases hd : r.descriptor with
  | none => rw [hd] at hload; cases hload
  | some text =>
    rw [hd] at h hload
    have hempty : (Text.trim text.toList).isEmpty = true := h
    simp only [Avro.Descriptor.load, hempty, if_true] at hload
    cases hload

theorem judge_refused_iff {a : ActiveSchema} (h : a.Genuine) {fieldName : String} {changed : Bool}
    {r : Record} : (∃ f, (a.judge fieldName changed r).verdict = .refused f) ↔
      r.encoding = .primitive ∧ a.isBare = true ∧ ∃ f, a.wrapping fieldName = .error f := by
  rw [← storage_error_iff h, judge]
  cases he : r.encoding with
  | binary => simp
  | json => simp
  | primitive => rcases a.storage fieldName with ⟨f | x, a'⟩ <;> simp

/-- What makes a record poisonous can be read off the active schema, once it is the record's. -/
theorem isPoisonous_iff {a : ActiveSchema} (h : a.Genuine) {fieldName : String} {r : Record}
    (hb : r.isBlank = false) (hd : a.descriptor = r.descriptor) :
    r.IsPoisonous fieldName ↔
      r.encoding = .primitive ∧ a.isBare = true ∧ ∃ f, a.wrapping fieldName = .error f := by
  have hpresent : a.isPresent = true := by
    rw [isPresent, hd]
    cases hr : r.descriptor with
    | none =>
      rw [Record.isBlank, hr] at hb
      cases hb
    | some text => rfl
  obtain ⟨a₀, ha₀, hschema, hnode⟩ := h.origin hpresent
  rw [hd] at ha₀
  have hbare : a.isBare = a₀.isBare := by rw [isBare, isBare, hschema]
  have hwrapping : a.wrapping fieldName = a₀.wrapping fieldName := by
    obtain ⟨node, schema, projection, -, rfl⟩ := activate_ok ha₀
    rw [wrapping, wrapping, hnode, hd]
  rw [Record.IsPoisonous, hbare, hwrapping]
  refine and_congr_right fun _ => ⟨?_, fun hbad => ⟨a₀, ha₀, hbad⟩⟩
  rintro ⟨a₁, ha₁, hbad⟩
  rw [ha₀] at ha₁
  cases ha₁
  exact hbad

/-- If a descriptor is refused only as one, just the poisonous records are refused. -/
theorem receive_refused_iff {a : ActiveSchema} (h : a.Genuine) {fieldName : String} {r : Record}
    (hobserve : ∀ f a', a.observe r.descriptor = (.error f, a') →
      ∃ fault text, f = .descriptor fault text) :
    (∃ f, (a.receive fieldName r).verdict = .refused f) ↔ r.IsPoisonous fieldName := by
  cases hb : r.isBlank with
  | true =>
    rw [receive_of_blank hb]
    constructor
    · rintro ⟨f, hf⟩
      cases hf
    · rintro ⟨-, a₀, ha₀, -⟩
      exact absurd ha₀ (activate_ne_ok_of_isBlank hb _ _)
  | false =>
    rcases ho : a.observe r.descriptor with ⟨f | changed, a'⟩
    · obtain ⟨fault, text, rfl⟩ := hobserve f a' ho
      rw [receive_of_refused hb ho]
      constructor
      · rintro ⟨f, hf⟩
        cases hf
      · -- What is refused now would be refused at any time.
        rintro ⟨-, a₀, ha₀, -⟩
        exact absurd ha₀ (activate_ne_ok_of_refused ho a₀)
    · have hgenuine : a'.Genuine := by
        have := observe_genuine h r.descriptor
        rwa [ho] at this
      rw [receive_of_observed hb ho, judge_refused_iff hgenuine,
        isPoisonous_iff hgenuine hb (observe_ok_descriptor ho)]

/-! ### What a record is refused for -/

theorem load_error_ofSchema {d : Option String} {f : Failure}
    (h : Avro.Descriptor.load d = .error f) : f.isOfSchema = true := by
  unfold Avro.Descriptor.load at h
  split at h
  · cases h
    rfl
  · dsimp only at h
    split at h
    · cases h
      rfl
    · split at h
      · cases h
      · cases h
        rfl
      · split at h
        · cases h
        · cases h
          rfl

theorem schemaOf_error_ofSchema {node : Value} {d : Option String} {f : Failure}
    (h : Avro.Descriptor.schemaOf node d = .error f) : f.isOfSchema = true := by
  unfold Avro.Descriptor.schemaOf at h
  split at h
  · cases h
  · split at h
    · cases h
      rfl
    · cases h
      rfl

theorem activate_error_ofSchema {a : ActiveSchema} {d : Option String} {f : Failure}
    (h : a.activate d = .error f) : f.isOfSchema = true := by
  simp only [activate, Bind.bind, Except.bind] at h
  cases hload : Avro.Descriptor.load d with
  | error g =>
    rw [hload] at h
    cases h
    exact load_error_ofSchema hload
  | ok node =>
    rw [hload] at h
    dsimp only at h
    cases hschema : Avro.Descriptor.schemaOf node d with
    | error g =>
      rw [hschema] at h
      cases h
      exact schemaOf_error_ofSchema hschema
    | ok schema =>
      rw [hschema] at h
      dsimp only at h
      cases hstrip : Avro.NullFree.strip node with
      | error g =>
        rw [hstrip] at h
        cases h
        rfl
      | ok stripped =>
        rw [hstrip] at h
        dsimp only [Except.mapError] at h
        cases hprojection : Avro.Descriptor.schemaOf stripped d with
        | error g =>
          rw [hprojection] at h
          cases h
          exact schemaOf_error_ofSchema hprojection
        | ok projection =>
          rw [hprojection] at h
          cases h

theorem observe_error_ofSchema {a a' : ActiveSchema} {d : Option String} {f : Failure}
    (h : a.observe d = (.error f, a')) : f.isOfSchema = true := by
  cases hc : a.isChanged d with
  | false =>
    rw [observe_of_same hc] at h
    cases h
  | true =>
    cases ha : a.activate d with
    | ok a₁ =>
      rw [observe_of_activate hc ha] at h
      cases h
    | error g =>
      rw [observe_of_refused hc ha] at h
      cases h
      exact activate_error_ofSchema ha

theorem storage_error_ofSchema {a a' : ActiveSchema} {fieldName : String} {f : Failure}
    (h : a.storage fieldName = (.error f, a')) : f.isOfSchema = true := by
  have hwrap (h : a.wrap fieldName = (.error f, a')) : f.isOfSchema = true := by
    unfold wrap at h
    split at h
    · cases h
    · split at h
      · cases h
      · rename_i hs
        cases h
        exact schemaOf_error_ofSchema hs
  unfold storage at h
  split at h
  · split at h
    · cases h
    · exact hwrap h
  · exact hwrap h

/-- A record is refused only for its schema. -/
theorem receive_refused_ofSchema {a : ActiveSchema} {fieldName : String} {r : Record} {f : Failure}
    (h : (a.receive fieldName r).verdict = .refused f) : f.isOfSchema = true := by
  cases hb : r.isBlank with
  | true =>
    rw [receive_of_blank hb] at h
    cases h
  | false =>
    rcases ho : a.observe r.descriptor with ⟨g | changed, a'⟩
    · by_cases hg : ∃ fault text, g = .descriptor fault text
      · obtain ⟨fault, text, rfl⟩ := hg
        rw [receive_of_refused hb ho] at h
        cases h
      · rw [receive_of_failed hb ho fun fault text he => hg ⟨fault, text, he⟩] at h
        cases h
        exact observe_error_ofSchema ho
    · rw [receive_of_observed hb ho, judge] at h
      cases he : r.encoding with
      | binary =>
        rw [he] at h
        cases h
      | json =>
        rw [he] at h
        cases h
      | primitive =>
        rw [he] at h
        rcases hs : a'.storage fieldName with ⟨g | x, a''⟩
        · rw [hs] at h
          cases h
          exact storage_error_ofSchema hs
        · rw [hs] at h
          cases h

end ActiveSchema

namespace Loop

open StreamTable.Action

variable {W S : Type} {p : Plan} {b : Backend W S} {clock : Readings} {l : Loop W S} {r : Record}

/-- The loop with other counts. -/
def counting (f : Totals → Totals) (l : Loop W S) : Loop W S :=
  { l with coordinator := { l.coordinator with totals := f l.coordinator.totals } }

/-- The loop once it has taken up a schema. -/
def following (changed : Bool) (a : ActiveSchema) (l : Loop W S) : Loop W S :=
  counting (fun t => if changed then { t with schemaChanges := t.schemaChanges + 1 } else t)
    { l with active := a }

/-- The row of a record that is admitted, if it comes to have one. -/
def rowOf (p : Plan) (r : Record) (schema : Avro.Schema) (a : ActiveSchema) :
    Option (Record × Value) :=
  let row := (Decoder.decode p.fieldName r schema (a.projection.getD default)).row
  if row.isNull then none else some (r, row)

/-- The row that a record comes to have, if it has one. -/
def receivedRow (p : Plan) (r : Record) (reception : Reception) : Option (Record × Value) :=
  match reception.verdict with
  | .admitted schema _ => rowOf p r schema reception.active
  | _ => none

/-- The record that the next iteration takes, with its row, if it comes to have one. -/
def nextRow (p : Plan) (l : Loop W S) : Option (Record × Value) :=
  l.queue.head?.bind fun r => receivedRow p r (l.active.receive p.fieldName r)

theorem receivedRow_eq_some {r : Record} {reception : Reception} {x : Record × Value}
    (h : receivedRow p r reception = some x) : x.1 = r := by
  rw [receivedRow] at h
  cases hv : reception.verdict with
  | skipped =>
    rw [hv] at h
    cases h
  | refused f =>
    rw [hv] at h
    cases h
  | admitted schema binding =>
    rw [hv] at h
    dsimp only at h
    rw [rowOf] at h
    simp only [Option.ite_none_left_eq_some, Option.some.injEq] at h
    rw [← h.2]

/-- The next row is that of the first record in the queue. -/
theorem nextRow_eq_some {x : Record × Value} (h : nextRow p l = some x) :
    l.queue.head? = some x.1 := by
  rw [nextRow, Option.bind_eq_some_iff] at h
  obtain ⟨r, hr, hx⟩ := h
  rw [hr, receivedRow_eq_some hx]

/-- The loop once it has skipped a record. -/
def skipping (l : Loop W S) : Loop W S := l.counting fun t => { t with skipped := t.skipped + 1 }

@[simp]
theorem ends_count (f : Totals → Totals) {Q : Unit → Loop W S → Prop}
    {E : Failure → Loop W S → Prop} : (count f).Ends l Q E ↔ Q () (l.counting f) := Iff.rfl

/-- Taking up a schema skips the record, or fails, or changes nothing but the active schema. -/
theorem follow_ends {Q : Bool → Loop W S → Prop} {E : Failure → Loop W S → Prop}
    (hblank : r.isBlank = true → Q false l.skipping)
    (hrefused : ∀ fault text a, r.isBlank = false →
      l.active.observe r.descriptor = (.error (.descriptor fault text), a) → Q false l.skipping)
    (hfailed : ∀ f a, r.isBlank = false → l.active.observe r.descriptor = (.error f, a) →
      (∀ fault text, f ≠ .descriptor fault text) → E f l)
    (hobserved : ∀ changed a, r.isBlank = false →
      l.active.observe r.descriptor = (.ok changed, a) → Q true (l.following changed a)) :
    (follow r).Ends l Q E := by
  simp only [follow, ends_bind, ends_get]
  cases hb : r.isBlank with
  | true =>
    rw [if_pos rfl]
    exact hblank hb
  | false =>
    rw [if_neg Bool.false_ne_true]
    cases hc : l.active.isChanged r.descriptor with
    | false =>
      rw [if_neg Bool.false_ne_true]
      exact hobserved false l.active hb (ActiveSchema.observe_of_same hc)
    | true =>
      rw [if_pos rfl]
      rcases ho : l.active.observe r.descriptor with ⟨f | changed, a⟩
      · cases f with
        | descriptor fault text => exact hrefused fault text a hb ho
        | _ => exact hfailed _ a hb ho fun _ _ he => by cases he
      · have hchanged : changed = true := (ActiveSchema.observe_ok ho).trans hc
        subst hchanged
        exact hobserved true a hb ho

/-- The schema of a row is that of the verdict. -/
theorem storage_ends (changed : Bool) {Q : Avro.Schema × Binding → Loop W S → Prop}
    {E : Failure → Loop W S → Prop} {reception : Reception}
    (hr : l.active.judge p.fieldName changed r = reception)
    (hrefused : ∀ f, reception.verdict = .refused f → E f { l with active := reception.active })
    (hadmitted : ∀ schema binding, reception.verdict = .admitted schema binding →
      Q (schema, binding) { l with active := reception.active }) :
    (storage p r).Ends l Q E := by
  subst hr
  rw [ActiveSchema.judge] at hrefused hadmitted
  simp only [storage, ends_bind, ends_get]
  cases he : r.encoding with
  | binary =>
    rw [he] at hadmitted
    exact hadmitted _ _ rfl
  | json =>
    rw [he] at hadmitted
    exact hadmitted _ _ rfl
  | primitive =>
    rw [he] at hrefused hadmitted
    rcases hs : l.active.storage p.fieldName with ⟨f | x, a⟩
    · simp only [hs] at hrefused
      exact hrefused f rfl
    · simp only [hs] at hadmitted
      exact hadmitted x.1 x.2 rfl

/-- How a loop goes on with a record is settled by its reception. -/
theorem handle_ends {Q : Unit → Loop W S → Prop} {E : Failure → Loop W S → Prop}
    {reception : Reception} (hr : l.active.receive p.fieldName r = reception)
    (hskipped : reception.verdict = .skipped → Q () l.skipping)
    (hrefused : ∀ f, reception.verdict = .refused f →
      E f (l.following reception.changed reception.active))
    (hadmitted : ∀ schema binding, reception.verdict = .admitted schema binding →
      (deliver p b clock r schema binding).Ends (l.following reception.changed reception.active)
        Q E) :
    (handle p b clock r).Ends l Q E := by
  subst hr
  simp only [handle, ends_bind]
  apply follow_ends
  case hblank =>
    intro hb
    rw [ActiveSchema.receive_of_blank hb] at hskipped
    exact hskipped rfl
  case hrefused =>
    intro fault text a hb ho
    rw [ActiveSchema.receive_of_refused hb ho] at hskipped
    exact hskipped rfl
  case hfailed =>
    intro f a hb ho hf
    rw [ActiveSchema.observe_error ho] at ho
    rw [ActiveSchema.receive_of_failed hb ho hf] at hrefused
    exact hrefused f rfl
  case hobserved =>
    intro changed a hb ho
    rw [ActiveSchema.receive_of_observed hb ho, ActiveSchema.judge_changed] at hrefused hadmitted
    rw [if_pos rfl, ends_bind]
    exact storage_ends (l := l.following changed a) changed rfl hrefused hadmitted

/-- An iteration fails over the time to wait, or commits while nothing waits, or handles the first
record that waits. -/
theorem iterate_cases {timeout : Double} {Q : Loop W S → Prop} {E : Failure → Loop W S → Prop}
    (hfault : ∀ fault, waitFault? timeout l.queue.isEmpty = some fault → E (.data fault) l)
    (hidle : l.queue = [] → (commitIfDue p b clock).Ends l (fun _ => Q) E)
    (hnext : ∀ r rest, l.queue = r :: rest →
      (handle p b clock r).Ends { l with queue := rest } (fun _ => Q) E) :
    (iterate p b clock timeout).Ends l (fun _ => Q) E := by
  simp only [iterate, ends_bind, ends_get]
  cases hwait : waitFault? timeout l.queue.isEmpty with
  | some fault => exact hfault fault hwait
  | none =>
    cases hqueue : l.queue with
    | nil =>
      simp only [ends_bind, ends_pure]
      exact hidle hqueue
    | cons r rest =>
      simp only [ends_bind, ends_modify, ends_pure]
      exact hnext r rest hqueue

/-- What an iteration comes to: nothing if the loop has stopped, and an end to it if it fails. -/
theorem advance_cases {R : Loop W S → Prop} {timeout : Double} (hstopped : l.running = false → R l)
    (hrunning : l.running = true → (iterate p b clock timeout).Ends l (fun _ l' => R l')
      (fun f l' => R { l' with running := false, lastError := some f })) :
    R ((advance p b clock timeout).run l).state := by
  refine Ends.state (R := R) ?_
  simp only [advance, ends_bind, ends_get]
  rw [ends_ite]
  refine ⟨fun hr => ?_, fun hr => hstopped (Bool.eq_false_iff.mpr hr)⟩
  rw [ends_bind, ends_attempt]
  exact (hrunning hr).mono (fun _ _ h => h) fun _ _ h => h

end Loop
end StreamTable
