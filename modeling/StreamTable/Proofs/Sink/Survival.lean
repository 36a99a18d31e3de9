/-
What stops a loop although its storage works.  A loop over reliable storage goes on with any
record, with one exception: a plain value whose descriptor is accepted, but names a type that
cannot be wrapped into a record.  The failure to wrap it is met where nobody counts on one, and it
stops the loop.
-/
import StreamTable.Proofs.Sink.History
import StreamTable.Proofs.Sink.Reliable

namespace StreamTable
namespace Loop

open StreamTable.Action

variable {W S : Type} {b : Backend W S} {p : Plan} {clock : Readings} {l : Loop W S}

/-! ## What holds of a loop at all times, whatever its table writers do -/

structure Healthy (l : Loop W S) : Prop where
  active : l.active.Genuine
  lastError : l.running = true → l.lastError = none

theorem start_healthy (world : S) (now : Double) : (start (W := W) world now).Healthy :=
  ⟨ActiveSchema.none_genuine, fun _ => rfl⟩

theorem Healthy.of_handled {l' : Loop W S} (h : l.Healthy) (hl : Handled l l') : l'.Healthy :=
  ⟨hl.active h.active, fun hr => hl.lastError.trans (h.lastError (hl.running.symm.trans hr))⟩

theorem iterate_healthy (timeout : Double) (h : l.Healthy) :
    (iterate p b clock timeout).Ends l (fun _ l' => l'.Healthy) (fun _ l' => l'.Healthy) := by
  refine iterate_cases (fun _ _ => h) (fun _ => ?_) fun r rest _ => ?_
  · have hframe : ∀ l' : Loop W S, l'.frame = l.frame → l'.Healthy := fun l' hl' =>
      h.of_handled (Handled.of_frame hl' ⟨rfl, rfl, rfl, rfl, id⟩)
    exact ((commitIfDue_frame clock).ends l).mono (fun _ => hframe) fun _ => hframe
  · have htaken : Healthy { l with queue := rest } := ⟨h.active, h.lastError⟩
    exact (handle_handled clock r _).mono (fun _ _ hl' => htaken.of_handled hl')
      fun _ _ hl' => htaken.of_handled hl'

theorem apply_healthy (e : Event) (h : l.Healthy) : (l.apply p b e).Healthy := by
  cases e with
  | put r => exact ⟨h.active, h.lastError⟩
  | iterate clock timeout =>
    refine advance_cases (fun _ => h) fun _ => ?_
    refine (iterate_healthy timeout h).mono (fun _ _ hl' => hl') fun f l' hl' => ?_
    exact ⟨hl'.active, fun hr => by cases hr⟩

theorem after_healthy (events : List Event) (h : l.Healthy) : (after p b events l).Healthy := by
  induction events generalizing l with
  | nil => exact h
  | cons e events ih => exact ih (apply_healthy e h)

/-! ## Poisonous records -/

/-- An iteration over a record goes well just if the time to wait is one and the record can be
taken up. -/
theorem advance_settles_iff (hb : b.Reliable) (ht : p.thresholds.Comparable) (h : l.Healthy)
    (hrunning : l.running = true) {r : Record} {rest : List Record} (hq : l.queue = r :: rest)
    (timeout : Double) :
    let l' := l.apply p b (.iterate clock timeout)
    (l'.running = true ∧ l'.lastError = none ∧ Settles l l') ↔
      waitFault? timeout false = none ∧
        ¬∃ f, (l.active.receive p.fieldName r).verdict = .refused f := by
  intro l'
  let good (l' : Loop W S) : Prop := l'.running = true ∧ l'.lastError = none ∧ Settles l l'
  let can : Prop := waitFault? timeout false = none ∧
    ¬∃ f, (l.active.receive p.fieldName r).verdict = .refused f
  have hiterate : (iterate p b clock timeout).Ends l (fun _ l' => good l' ∧ can)
      (fun _ _ => ¬can) := by
    simp only [iterate, ends_bind, ends_get, hq, List.isEmpty_cons]
    cases hwait : waitFault? timeout false with
    | some fault =>
      intro hcan
      cases hwait.symm.trans hcan.1
    | none =>
      simp only [ends_bind, ends_modify, ends_pure]
      by_cases hrefused : ∃ f, (l.active.receive p.fieldName r).verdict = .refused f
      · exact (handle_fails (l := { l with queue := rest }) hrefused).mono
          (fun _ _ hl' => hl'.elim) fun _ _ _ hcan => hcan.2 hrefused
      · have hsettles : (handle p b clock r).Ends { l with queue := rest }
            (fun _ l' => Settles { l with queue := rest } l') (fun _ _ => False) :=
          handle_succeeds hb ht hrefused
        refine (hsettles.and (handle_handled clock r _)).mono (fun _ l' hl' => ?_)
          fun _ _ hl' => hl'.1.elim
        exact ⟨⟨hl'.2.running.trans hrunning, hl'.2.lastError.trans (h.lastError hrunning), hl'.1⟩,
          hwait, hrefused⟩
  have hends : (advance p b clock timeout).Ends l (fun _ l' => good l' ↔ can)
      (fun _ l' => good l' ↔ can) := by
    simp only [advance, ends_bind, ends_get]
    rw [if_pos hrunning, ends_bind, ends_attempt]
    refine hiterate.mono (fun _ l' hl' => ?_) fun f l' hcan => ?_
    · exact ⟨fun _ => hl'.2, fun _ => hl'.1⟩
    · exact ⟨fun hgood => (by cases hgood.1), fun h => absurd h hcan⟩
  exact hends.state

/-- Over reliable storage a running loop goes on with the record, which is written, dropped or
skipped, just if the record is not poisonous and the time to wait is one. -/
theorem survives_iff_not_poisonous (hb : b.Reliable) {s : Settings} (hs : s.validate = .ok ())
    (hp : Plan.ofSettings s = .ok p) (events : List Event) (world : S) (now : Double)
    (clock : Readings) (timeout : Double) {r : Record} {rest : List Record}
    (hrunning : (after p b events (start world now)).running = true)
    (hqueue : (after p b events (start world now)).queue = r :: rest)
    (hobserve : ∀ f a, (after p b events (start world now)).active.observe r.descriptor =
      (.error f, a) → ∃ fault text, f = .descriptor fault text) :
    let l := after p b events (start world now)
    let l' := l.apply p b (.iterate clock timeout)
    (l'.running = true ∧ l'.lastError = none ∧ Settles l l') ↔
      waitFault? timeout false = none ∧ ¬r.IsPoisonous p.fieldName := by
  have hhealthy : (after p b events (start world now)).Healthy :=
    after_healthy events (start_healthy world now)
  have hrefused : (∃ f, ((after p b events (start world now)).active.receive
      p.fieldName r).verdict = .refused f) ↔ r.IsPoisonous p.fieldName :=
    ActiveSchema.receive_refused_iff hhealthy.active hobserve
  rw [← not_congr hrefused]
  exact advance_settles_iff hb (Settings.comparable hs hp) hhealthy hrunning hqueue timeout

end Loop

/-! ## Storage in memory -/

/-- Table writers that keep their rows in memory. -/
def Backend.inMemory : Backend (List Value) Unit where
  create _ := pure []
  name _ := "memory"
  updateSchema _ := pure false
  write row := .modify fun x => (x.1 ++ [row], x.2)
  flush := do
    Action.modify fun x => ([], x.2)
    pure true
  close := pure ()

theorem Backend.inMemory_reliable : inMemory.Reliable where
  create _ _ := trivial
  updateSchema _ _ := trivial
  write _ _ := trivial
  flush _ := rfl
  close _ := trivial
  acknowledge _ _ := trivial

theorem Settings.default_valid : Settings.default.validate = .ok () := by
  have h : Except.passes (fun _ => true) Settings.default.validate = true := by decide +kernel
  obtain ⟨u, hu, -⟩ := Except.of_passes h
  exact hu

namespace Loop

/-- A record of a schema with one field. -/
def ordinary : Record where
  descriptor := some ("\x7b\"type\":\"record\",\"name\":\"R\"," ++
    "\"fields\":[\x7b\"name\":\"n\",\"type\":\"long\"\x7d]\x7d")
  encoding := .binary
  payload := Value.ofFields [("n", .int 7)]
  id := .str "a"

/-- A plain value of a type that has the name of the record it would be wrapped into. -/
def poison : Record where
  descriptor := some "\x7b\"type\":\"fixed\",\"name\":\"PrimitiveRecord\",\"size\":1\x7d"
  encoding := .primitive
  payload := .str "x"
  id := .str "a"

theorem ordinary_record_survived : ∃ p, Plan.ofSettings Settings.default = .ok p ∧
    let l := after p .inMemory [.put ordinary] (start () .zero)
    let l' := l.apply p .inMemory (.iterate (.still .zero) .zero)
    l'.running = true ∧ l'.lastError = none ∧ Settles l l' := by
  have hplan : Except.passes (fun _ => true) (Plan.ofSettings Settings.default) = true := by
    decide +kernel
  have hschema : Except.passes (fun _ => true)
      (ActiveSchema.none.observe ordinary.descriptor).1 = true := by
    decide +kernel
  obtain ⟨p, hp, -⟩ := Except.of_passes hplan
  obtain ⟨changed, hchanged, -⟩ := Except.of_passes hschema
  refine ⟨p, hp, (survives_iff_not_poisonous Backend.inMemory_reliable Settings.default_valid hp
    [.put ordinary] () .zero (.still .zero) .zero rfl rfl ?_).mpr ⟨by decide +kernel, ?_⟩⟩
  · intro f a h
    rw [show ActiveSchema.none.observe ordinary.descriptor = (.error f, a) from h] at hchanged
    cases hchanged
  · rintro ⟨hprimitive, -⟩
    cases hprimitive

/-- A poisonous record stops a loop over reliable storage, although its descriptor is accepted. -/
theorem poison_stops : ∃ p changed, Plan.ofSettings Settings.default = .ok p ∧
    Settings.default.validate = .ok () ∧ Backend.inMemory.Reliable ∧
    (ActiveSchema.none.observe poison.descriptor).1 = .ok changed ∧
    let l := after p .inMemory [.put poison] (start () .zero)
    let l' := l.apply p .inMemory (.iterate (.still .zero) .zero)
    l.running = true ∧ l.queue = [poison] ∧
      l'.running = false ∧ l'.lastError.isSome = true ∧ l'.outcomes = (0, 0, 0) := by
  have hrun : Except.passes (fun p =>
      let l' := (after p .inMemory [.put poison] (start () .zero)).apply p .inMemory
        (.iterate (.still .zero) .zero)
      l'.running = false ∧ l'.lastError.isSome = true ∧ l'.outcomes = (0, 0, 0))
      (Plan.ofSettings Settings.default) = true := by
    decide +kernel
  have hschema : Except.passes (fun _ => true)
      (ActiveSchema.none.observe poison.descriptor).1 = true := by
    decide +kernel
  obtain ⟨p, hp, hstopped⟩ := Except.of_passes hrun
  obtain ⟨changed, hchanged, -⟩ := Except.of_passes hschema
  exact ⟨p, changed, hp, Settings.default_valid, Backend.inMemory_reliable, hchanged, rfl, rfl,
    of_decide_eq_true hstopped⟩

end Loop
end StreamTable
