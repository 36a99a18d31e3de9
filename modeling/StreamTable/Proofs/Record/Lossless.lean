/-
The projection of the active schema loses nothing but nulls.  Whatever value has no null inside and
fits one of the two with all its fields at hand fits the other in that way, and is not refused by
the check of either.  The checks can still disagree, where one of them breaks off: a record is
compared with the branches before its own, and a field that it does not have is null there.
-/
import StreamTable.Proofs.Avro.Lossless
import StreamTable.Proofs.Record.PlainType
import StreamTable.Proofs.Record.Projection

namespace StreamTable
namespace Decoder

open ActiveSchema (Projects)

variable {s p t t' : Avro.Schema} {v : Value}

/-- A value that fits one of a schema and its projection with all fields at hand is refused by the
check of neither. -/
theorem not_refused_of_projects (h : Projects s p) (ht : s.settle = .ok t)
    (ht' : p.settle = .ok t') (hv : v.Solid) :
    t'.fitsWhole v = t.fitsWhole v ∧
      (t.fitsWhole v = true → s.fits v ≠ .ok false ∧ p.fits v ≠ .ok false) := by
  have hsame : t'.fitsWhole v = t.fitsWhole v := by
    rw [h.settled ht ht']
    exact Avro.Schema.fitsWhole_of_stripped hv
  refine ⟨hsame, fun hwhole => ⟨?_, ?_⟩⟩
  · exact Avro.Schema.not_refused_of_fitsWhole ht hv hwhole
  · exact Avro.Schema.not_refused_of_fitsWhole ht' hv (hsame.trans hwhole)

theorem fits_eq_of_projects (h : Projects s p) (ht : s.settle = .ok t) (ht' : p.settle = .ok t')
    (hv : v.Solid) (hcarries : t.carries v = true) : p.fits v = s.fits v := by
  have hregular := Avro.Schema.settle_regular ht h.schema
  rw [Avro.Schema.fits_of_settled ht, Avro.Schema.fits_of_settled ht', h.settled ht ht',
    Avro.Validation.check_carried hregular Avro.maxNesting hregular hv hcarries]

/-- A value without a null or a tuple inside that, if it fits the active schema or its projection,
does so with all fields of its record types at hand, fits both or neither, unless one of the checks
breaks off.  What fits one of them with all fields at hand so fits the other, and is refused by
neither check.  If the value even has all fields of every record type that it is compared with, the
two checks come to the same, also where they break off. -/
theorem projection_loses_only_nulls {a₀ a : ActiveSchema} {d : Option String}
    (hactive : a₀.observe d = (.ok true, a)) (hs : a.schema = some s) (hp : a.projection = some p)
    (ht : s.settle = .ok t) (ht' : p.settle = .ok t') (hv : v.Solid) :
    ((s.fits v = .ok true → t.fitsWhole v = true) →
      (p.fits v = .ok true → t'.fitsWhole v = true) →
      (∀ f, s.fits v ≠ .error f) → (∀ f, p.fits v ≠ .error f) →
      (s.fits v = .ok true ↔ p.fits v = .ok true)) ∧
    t'.fitsWhole v = t.fitsWhole v ∧
    (t.fitsWhole v = true → s.fits v ≠ .ok false ∧ p.fits v ≠ .ok false) ∧
    (t.carries v = true → p.fits v = s.fits v) := by
  have hprojects := ActiveSchema.observe_projects hactive hs hp
  obtain ⟨hsame, hkept⟩ := not_refused_of_projects hprojects ht ht' hv
  refine ⟨fun hwhole hwhole' hsound hsound' => ⟨fun hfits => ?_, fun hfits => ?_⟩, hsame, hkept,
    fits_eq_of_projects hprojects ht ht' hv⟩
  · have hnot := (hkept (hwhole hfits)).2
    cases hchecked : p.fits v with
    | error f => exact absurd hchecked (hsound' f)
    | ok b =>
      cases b with
      | true => rfl
      | false => exact absurd hchecked hnot
  · have hnot := (hkept (hsame.symm.trans (hwhole' hfits))).1
    cases hchecked : s.fits v with
    | error f => exact absurd hchecked (hsound f)
    | ok b =>
      cases b with
      | true => rfl
      | false => exact absurd hchecked hnot

open Json (Faithful)
open PlainValue (faithful_recordNode)

/-- A node that its text tells is taken up as it is. -/
theorem activate_print {node : Value} (h : Faithful node) :
    ActiveSchema.none.activate (Json.print? node) =
      ActiveSchema.none.takeUp node (Json.print? node) := by
  obtain ⟨text, hprint, hload⟩ := h.load_print
  rw [hprint]
  exact ActiveSchema.activate_of_load hload

theorem faithful_optionalNode : Faithful optionalNode :=
  faithful_recordNode _ _ (by simpa using .list _ (by simp [Faithful.str]))

theorem optional_text_kept : ∃ x : Outset, x.Of optionalNode ∧
    let v := Value.ofFields [("x", .str "a")]
    x.schema.fits v = .ok true ∧ (x.schema.fits v = .ok true ↔ x.projection.fits v = .ok true) ∧
      x.projection.fits v = x.schema.fits v := by
  have hsolid : (Value.ofFields [("x", .str "a")]).Solid := by
    refine .map _ fun e he => ?_
    rw [List.mem_singleton.mp he]
    exact .atom _ rfl rfl
  have h : (outset? optionalNode).any (fun x =>
      let v := Value.ofFields [("x", .str "a")]
      Except.passes (· == true) (x.schema.fits v) && x.settled.fitsWhole v && x.settled.carries v &&
        Except.passes (·.fitsWhole v) x.projection.settle) = true := by
    rw [outset?, ActiveSchema.observe, activate_print faithful_optionalNode]
    decide +kernel
  obtain ⟨x, hx, h⟩ := (Option.any_eq_true _ _).mp h
  have hof := Outset.of_outset? hx
  simp only [Bool.and_eq_true] at h
  obtain ⟨⟨⟨hfits, hwhole⟩, hcarries⟩, hsettled⟩ := h
  obtain ⟨b, hfits, htrue⟩ := Except.of_passes hfits
  obtain rfl : b = true := beq_iff_eq.mp htrue
  obtain ⟨t', ht', hwhole'⟩ := Except.of_passes hsettled
  obtain ⟨hiff, -, -, hsame⟩ := projection_loses_only_nulls hof.active hof.schema hof.projection
    hof.settled ht' hsolid
  have hsame := hsame hcarries
  have hnone : ∀ f, x.schema.fits (Value.ofFields [("x", .str "a")]) ≠ .error f := fun f hf => by
    rw [hfits] at hf
    cases hf
  exact ⟨x, hof, hfits, hiff (fun _ => hwhole) (fun _ => hwhole') hnone (hsame ▸ hnone), hsame⟩

/-- Records that may have a number and are kept as days, and records of a note. -/
def dayNode : Value := recordNode "Row" [("x", .list [
  recordNode "Dated" [("a", .list [.str "null", .str "int"]),
    ("day", PlainValue.logicalNode "int" "date")],
  recordNode "Noted" [("day", .str "string")]])]

theorem faithful_dayNode : Faithful dayNode := by
  have hunion : Faithful (.list [.str "null", .str "int"]) := .list _ (by simp [Faithful.str])
  have hday : Faithful (PlainValue.logicalNode "int" "date") :=
    .fields _ (by decide) (by simp [Faithful.str])
  have hdated := faithful_recordNode "Dated" [("a", .list [.str "null", .str "int"]),
    ("day", PlainValue.logicalNode "int" "date")] (by simpa using ⟨hunion, hday⟩)
  have hnoted := faithful_recordNode "Noted" [("day", .str "string")] (by simp [Faithful.str])
  exact faithful_recordNode _ _ (by simpa using .list _ (by simpa using ⟨hdated, hnoted⟩))

/-- A note has all fields of its type and fits the projection.  The schema compares it with the
first branch until it breaks off at the day, for the number may be null, and so it may be
missing. -/
theorem note_breaks_off : ∃ x : Outset, x.Of dayNode ∧
    let v := Value.ofFields [("x", Value.ofFields [("day", .str "soon")])]
    v.Solid ∧ (∃ t', x.projection.settle = .ok t' ∧ t'.fitsWhole v = true) ∧
      x.projection.fits v = .ok true ∧ ∃ f, x.schema.fits v = .error f := by
  have hsolid : (Value.ofFields [("x", Value.ofFields [("day", .str "soon")])]).Solid := by
    refine .map _ fun e he => ?_
    rw [List.mem_singleton.mp he]
    refine .map _ fun e he => ?_
    rw [List.mem_singleton.mp he]
    exact .atom _ rfl rfl
  have h : (outset? dayNode).any (fun x =>
      let v := Value.ofFields [("x", Value.ofFields [("day", .str "soon")])]
      Except.passes (·.fitsWhole v) x.projection.settle &&
        Except.passes (· == true) (x.projection.fits v) &&
        !Except.passes (fun _ => true) (x.schema.fits v)) = true := by
    rw [outset?, ActiveSchema.observe, activate_print faithful_dayNode]
    decide +kernel
  obtain ⟨x, hx, h⟩ := (Option.any_eq_true _ _).mp h
  simp only [Bool.and_eq_true, Bool.not_eq_true'] at h
  obtain ⟨⟨hwhole, hfits⟩, hbroken⟩ := h
  obtain ⟨b, hfits, htrue⟩ := Except.of_passes hfits
  obtain rfl : b = true := beq_iff_eq.mp htrue
  refine ⟨x, Outset.of_outset? hx, hsolid, Except.of_passes hwhole, hfits, ?_⟩
  cases hschema : x.schema.fits (Value.ofFields [("x", Value.ofFields [("day", .str "soon")])]) with
  | ok b =>
    rw [hschema] at hbroken
    cases hbroken
  | error f => exact ⟨f, rfl⟩

end Decoder
end StreamTable
