/-
Batching is transparent.  When rows are committed depends on the clock, on the thresholds and on
when the loop finds nothing to do; what is written where does not.  Two loops over the same records
whose table writers do all they are asked for, and are replaced by the same rule, both follow the
course of these records.
-/
import StreamTable.Proofs.Sink.Course
import StreamTable.Proofs.Sink.Survival

namespace StreamTable

open StreamTable.Action

variable {W S : Type}

namespace Loop

/-- Each iteration waits a time that can be waited. -/
def Polls (p : Plan) (b : Backend W S) : List Event → Loop W S → Prop
  | [], _ => True
  | .put r :: events, l => Polls p b events (l.apply p b (.put r))
  | .iterate clock timeout :: events, l =>
    (l.running = true → waitFault? timeout l.queue.isEmpty = none) ∧
      Polls p b events (l.apply p b (.iterate clock timeout))

/-- Whether the time of an iteration can be waited, whatever the queue holds. -/
def Event.waits : Event → Bool
  | .put _ => true
  | .iterate _ timeout => (waitFault? timeout true).isNone && (waitFault? timeout false).isNone

/-- Nothing stands in the way of a history: each iteration can wait, each call of a table writer
and of whoever waits for a record goes well, and all records are taken unless the loop stops. -/
structure Unhindered (rule : ReplacementRule) (p : Plan) (b : Backend W S) (events : List Event)
    (world : S) (now : Double) : Prop where
  polls : Polls p b events (start world now)
  smooth : (after p b.tracing events (start ([], world) now)).trace.smooth rule = true
  drained : (after p b events (start world now)).running = true →
    (after p b events (start world now)).queue = []

variable {b : Backend W S} {p : Plan} {rule : ReplacementRule}

theorem polls_of_waits {events : List Event} (h : ∀ e ∈ events, e.waits = true) (l : Loop W S) :
    Polls p b events l := by
  induction events generalizing l with
  | nil => trivial
  | cons e events ih =>
    have hrest := ih (fun e he => h e (List.mem_cons_of_mem _ he)) (l.apply p b e)
    have hfirst := h e List.mem_cons_self
    cases e with
    | put r => exact hrest
    | iterate clock timeout =>
      rw [Event.waits, Bool.and_eq_true, Option.isNone_iff_eq_none, Option.isNone_iff_eq_none]
        at hfirst
      refine ⟨fun _ => ?_, hrest⟩
      cases l.queue.isEmpty with
      | true => exact hfirst.1
      | false => exact hfirst.2

theorem polls_map {W' S' : Type} {w : W → W'} {s : S → S'} {b' : Backend W' S'}
    (hb : b.Mirrors w s b') (events : List Event) (l : Loop W S) :
    Polls p b' events (l.map w s) ↔ Polls p b events l := by
  induction events generalizing l with
  | nil => exact Iff.rfl
  | cons e events ih =>
    cases e with
    | put r =>
      rw [Polls, Polls, ← map_apply hb]
      exact ih _
    | iterate clock timeout =>
      rw [Polls, Polls, ← map_apply hb]
      exact and_congr_right fun _ => ih _

variable {l : Loop (Nat × W) (Trace × S)}

/-- An event keeps to the course of the records that wait and of those that come. -/
theorem apply_course (ht : p.thresholds.Comparable) (e : Event)
    (hpolls : Polls p b.tracing [e] l) (hattended : l.running = true → l.Attended)
    (hsmooth : (l.apply p b.tracing e).Smooth rule) :
    ((l.apply p b.tracing e).running = true → (l.apply p b.tracing e).Attended) ∧
      (l.apply p b.tracing e).queue.foldl (Course.take rule p.fieldName)
          (l.apply p b.tracing e).course =
        (l.queue ++ records [e]).foldl (Course.take rule p.fieldName) l.course := by
  cases e with
  | put r => exact ⟨hattended, rfl⟩
  | iterate clock timeout =>
    rw [show l.queue ++ records [Event.iterate clock timeout] = l.queue from List.append_nil _]
    refine advance_cases (R := fun l' => l'.Smooth rule → (l'.running = true → l'.Attended) ∧
      l'.queue.foldl (Course.take rule p.fieldName) l'.course =
        l.queue.foldl (Course.take rule p.fieldName) l.course) (fun _ _ => ⟨hattended, rfl⟩)
      (fun hrunning => ?_) hsmooth
    simp only [iterate, ends_bind, ends_get, hpolls.1 hrunning]
    cases hq : l.queue with
    | nil =>
      have hcommit : (commitIfDue p b.tracing clock).EndsIf (Smooth rule) l
          (fun _ l' => l'.course = l.course ∧ l'.Attended) (fun _ _ => False) :=
        commitIfDue_course ht (hattended hrunning)
      have hframe := (commitIfDue_frame (p := p) (b := b.tracing) clock).ends l
      simp only [ends_bind, ends_pure]
      refine (Ends.and hcommit hframe).mono (fun _ l' hl' hs => ?_)
        fun _ l' hl' hs => (hl'.1 hs).elim
      obtain ⟨hcourse, hattended'⟩ := hl'.1 hs
      have hqueue : l'.queue = [] := (congrArg Frame.queue hl'.2).trans hq
      rw [hqueue]
      exact ⟨fun _ => hattended', hcourse⟩
    | cons r rest =>
      have hhandle : (handle p b.tracing clock r).EndsIf (Smooth rule) { l with queue := rest }
          (fun _ l' => l'.course = l.course.take rule p.fieldName r ∧ l'.Attended)
          (fun f l' => l'.course.stop f = l.course.take rule p.fieldName r) :=
        handle_course ht r hrunning (hattended hrunning)
      have hhandled := handle_handled (p := p) (b := b.tracing) clock r { l with queue := rest }
      simp only [ends_bind, ends_modify, ends_pure]
      refine (Ends.and hhandle hhandled).mono (fun _ l' hl' hs => ?_) fun f l' hl' hs => ?_
      · obtain ⟨hcourse, hattended'⟩ := hl'.1 hs
        rw [hl'.2.queue, hcourse]
        exact ⟨fun _ => hattended', rfl⟩
      · have hstopped : l'.course.stop f = l.course.take rule p.fieldName r := hl'.1 hs
        refine ⟨fun hr => (by cases hr), ?_⟩
        show l'.queue.foldl _ (l'.course.stop f) = _
        rw [hl'.2.queue, hstopped]
        rfl

/-- A history keeps to the course of the records that waited and of those that came. -/
theorem after_course (ht : p.thresholds.Comparable) (events : List Event)
    (hpolls : Polls p b.tracing events l) (hattended : l.running = true → l.Attended)
    (hsmooth : (after p b.tracing events l).Smooth rule) :
    (after p b.tracing events l).queue.foldl (Course.take rule p.fieldName)
        (after p b.tracing events l).course =
      (l.queue ++ records events).foldl (Course.take rule p.fieldName) l.course := by
  induction events generalizing l with
  | nil => rw [records, List.append_nil]; rfl
  | cons e events ih =>
    -- A call that has not gone well shows to the end.
    have hfirst : (l.apply p b.tracing e).Smooth rule := Classical.byContradiction fun hlost =>
      after_lasts Trace.Lasting.not_smooth events _ hlost hsmooth
    have hpolls' : Polls p b.tracing [e] l ∧ Polls p b.tracing events (l.apply p b.tracing e) := by
      cases e with
      | put r => exact ⟨trivial, hpolls⟩
      | iterate clock timeout => exact ⟨⟨hpolls.1, trivial⟩, hpolls.2⟩
    have hrecords : records (e :: events) = records [e] ++ records events := by
      cases e <;> rfl
    obtain ⟨hattended', hcourse⟩ := apply_course ht e hpolls'.1 hattended hfirst
    rw [after, ih hpolls'.2 hattended' hsmooth, List.foldl_append, hcourse, hrecords,
      ← List.append_assoc, ← List.foldl_append]

/-- An unhindered history ends as the course of its records does. -/
theorem course_of_unhindered (ht : p.thresholds.Comparable) {events : List Event} {world : S}
    {now : Double} (h : Unhindered rule p b events world now) :
    (after p b.tracing events (start ([], world) now)).course =
      (records events).foldl (Course.take rule p.fieldName)
        (start ([], world) now : Loop (Nat × W) (Trace × S)).course := by
  have hmap : (after p b.tracing events (start ([], world) now)).map Prod.snd Prod.snd =
      after p b events (start world now) := map_after b.tracing_mirrors events _
  have hpolls : Polls p b.tracing events (start ([], world) now) :=
    (polls_map b.tracing_mirrors events _).mp h.polls
  have hcourse := after_course ht events hpolls (fun _ => .inl rfl) h.smooth
  refine Eq.trans ?_ hcourse
  cases hrunning : (after p b.tracing events (start ([], world) now)).running with
  | true =>
    have hdrained := h.drained
    rw [← hmap] at hdrained
    rw [show (after p b.tracing events (start ([], world) now)).queue = [] from hdrained hrunning]
    rfl
  | false => exact (Course.foldl_take_of_stopped hrunning _).symm

/-- Two histories of the same records, under settings that differ only in when commits are due:
if nothing stands in their way and table writers are replaced by the same rule, then the calls of
the table writers are the same but for commits and acknowledgements, and so are the counts and
whether the loop runs. -/
theorem batching_is_transparent {W₁ S₁ W₂ S₂ : Type} (b₁ : Backend W₁ S₁) (b₂ : Backend W₂ S₂)
    {s : Settings} {interval rows : Value} {p₁ p₂ : Plan} (hs₁ : s.validate = .ok ())
    (hs₂ : { s with maxCommitInterval := interval, maxRecordsPerCommit := rows }.validate = .ok ())
    (hp₁ : Plan.ofSettings s = .ok p₁)
    (hp₂ : Plan.ofSettings { s with maxCommitInterval := interval, maxRecordsPerCommit := rows } =
      .ok p₂)
    {rule : ReplacementRule} {events₁ events₂ : List Event}
    (hrecords : records events₁ = records events₂) {world₁ : S₁} {world₂ : S₂} {now₁ now₂ : Double}
    (h₁ : Unhindered rule p₁ b₁ events₁ world₁ now₁)
    (h₂ : Unhindered rule p₂ b₂ events₂ world₂ now₂) :
    let l₁ := after p₁ b₁ events₁ (start world₁ now₁)
    let l₂ := after p₂ b₂ events₂ (start world₂ now₂)
    let traced₁ := after p₁ b₁.tracing events₁ (start ([], world₁) now₁)
    let traced₂ := after p₂ b₂.tracing events₂ (start ([], world₂) now₂)
    traced₁.map Prod.snd Prod.snd = l₁ ∧ traced₂.map Prod.snd Prod.snd = l₂ ∧
      traced₁.trace.withoutCommits = traced₂.trace.withoutCommits ∧
      l₁.coordinator.tally = l₂.coordinator.tally ∧
      l₁.coordinator.opened = l₂.coordinator.opened ∧
      l₁.running = l₂.running ∧ l₁.lastError = l₂.lastError := by
  intro l₁ l₂ traced₁ traced₂
  have hmap₁ : traced₁.map Prod.snd Prod.snd = l₁ := map_after b₁.tracing_mirrors events₁ _
  have hmap₂ : traced₂.map Prod.snd Prod.snd = l₂ := map_after b₂.tracing_mirrors events₂ _
  have hname : p₁.fieldName = p₂.fieldName := by
    have hname₁ := (Plan.ofSettings_ok hp₁).1
    have hname₂ := (Plan.ofSettings_ok hp₂).1
    exact Except.ok.inj (hname₁.symm.trans hname₂)
  have hcourse : traced₁.course = traced₂.course := by
    have hcourse₁ := course_of_unhindered (Settings.comparable hs₁ hp₁) h₁
    have hcourse₂ := course_of_unhindered (Settings.comparable hs₂ hp₂) h₂
    rw [hname, hrecords] at hcourse₁
    exact hcourse₁.trans hcourse₂.symm
  have hstanding : traced₁.coordinator.standing = traced₂.coordinator.standing :=
    congrArg Course.standing hcourse
  rw [← hmap₁, ← hmap₂]
  refine ⟨rfl, rfl, congrArg Standing.calls hstanding, ?_, congrArg Standing.opened hstanding,
    congrArg Course.running hcourse, congrArg Course.lastError hcourse⟩
  exact congrArg (fun x : Standing => (x.written, x.dropped, x.skipped, x.schemaChanges)) hstanding

end Loop

/-! ## Two ways to batch two records -/

/-- Table writers that take and commit all rows, and ask to be replaced for every schema. -/
def Backend.renewing : Backend Unit Unit where
  create _ := Pure.pure ()
  name _ := "renewing"
  updateSchema _ := Pure.pure true
  write _ := Pure.pure ()
  flush := Pure.pure true
  close := Pure.pure ()

namespace Loop

/-- A record of another schema. -/
def other : Record where
  descriptor := some ("\x7b\"type\":\"record\",\"name\":\"R\"," ++
    "\"fields\":[\x7b\"name\":\"s\",\"type\":\"string\"\x7d]\x7d")
  encoding := .binary
  payload := Value.ofFields [("s", .str "x")]
  id := .str "b"

/-- Both records wait before the first is taken. -/
def together : List Event :=
  [.put ordinary, .put other, .iterate (.still .zero) .zero, .iterate (.still .zero) .zero]

/-- The first record is taken before the second comes, and once the loop finds nothing to do. -/
def apart : List Event :=
  [.put ordinary, .iterate (.still .zero) .zero, .iterate (.still (.ofInt 7)) .zero, .put other,
    .iterate (.still (.ofInt 9)) .zero]

/-- The first writer is told to commit before it is replaced, or has committed already; the calls
are the same otherwise. -/
theorem batched_alike : ∃ p₁ p₂, Plan.ofSettings Settings.default = .ok p₁ ∧
    Plan.ofSettings { Settings.default with
      maxCommitInterval := .int 1, maxRecordsPerCommit := .int 1 } = .ok p₂ ∧
    let traced₁ := after p₁ Backend.renewing.tracing together (start ([], ()) .zero)
    let traced₂ := after p₂ Backend.renewing.tracing apart (start ([], ()) .zero)
    traced₁.trace.withoutCommits = traced₂.trace.withoutCommits ∧
      traced₁.trace.length = 8 ∧ traced₂.trace.length = 10 := by
  let rule : ReplacementRule := fun _ _ => true
  have hvalid₂ : Except.passes (fun _ => true) ({ Settings.default with
      maxCommitInterval := .int 1, maxRecordsPerCommit := .int 1 } : Settings).validate = true := by
    decide +kernel
  have hrun₁ : Except.passes (fun p =>
      let traced := after p Backend.renewing.tracing together (start ([], ()) .zero)
      traced.trace.smooth rule = true ∧ traced.queue.isEmpty ∧ traced.trace.length = 8)
      (Plan.ofSettings Settings.default) = true := by
    decide +kernel
  have hrun₂ : Except.passes (fun p =>
      let traced := after p Backend.renewing.tracing apart (start ([], ()) .zero)
      traced.trace.smooth rule = true ∧ traced.queue.isEmpty ∧ traced.trace.length = 10)
      (Plan.ofSettings { Settings.default with
        maxCommitInterval := .int 1, maxRecordsPerCommit := .int 1 }) = true := by
    decide +kernel
  obtain ⟨⟨⟩, hvalid₂, -⟩ := Except.of_passes hvalid₂
  obtain ⟨p₁, hp₁, hrun₁⟩ := Except.of_passes hrun₁
  obtain ⟨p₂, hp₂, hrun₂⟩ := Except.of_passes hrun₂
  obtain ⟨hsmooth₁, hqueue₁, hlength₁⟩ := of_decide_eq_true hrun₁
  obtain ⟨hsmooth₂, hqueue₂, hlength₂⟩ := of_decide_eq_true hrun₂
  have hunhindered {p : Plan} {events : List Event}
      (hpolls : Polls p .renewing events (start () .zero))
      (hsmooth : (after p Backend.renewing.tracing events (start ([], ()) .zero)).trace.smooth rule =
        true)
      (hqueue : (after p Backend.renewing.tracing events (start ([], ()) .zero)).queue.isEmpty) :
      Unhindered rule p .renewing events () .zero := by
    refine ⟨hpolls, hsmooth, fun _ => ?_⟩
    have hmap := map_after (p := p) Backend.renewing.tracing_mirrors events (start ([], ()) .zero)
    exact (congrArg Loop.queue hmap).symm.trans (List.isEmpty_iff.mp hqueue)
  have htogether : ∀ e ∈ together, e.waits = true := by decide +kernel
  have hapart : ∀ e ∈ apart, e.waits = true := by decide +kernel
  have hrecords : records together = records apart := rfl
  have h := batching_is_transparent .renewing .renewing Settings.default_valid hvalid₂ hp₁ hp₂
    hrecords (hunhindered (polls_of_waits htogether _) hsmooth₁ hqueue₁)
    (hunhindered (polls_of_waits hapart _) hsmooth₂ hqueue₂)
  exact ⟨p₁, p₂, hp₁, hp₂, h.2.2.1, hlength₁, hlength₂⟩

end Loop
end StreamTable
