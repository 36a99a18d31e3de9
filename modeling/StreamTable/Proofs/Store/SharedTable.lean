/-
Many writers at one table.  Whatever they are told, in whatever order, and whatever fails on the
way, the table's versions are those of its chronicle: numbered from one, each in a file of its own,
each with the rows and the fingerprint of the writer that committed it, and never changed again.
The table has as many rows as its manifest says just when each of the committed buffers can be read
back.
-/
import StreamTable.Proofs.Store.Chronicle

namespace StreamTable
namespace Store
namespace Fleet

open StreamTable.Action

/-- What happens to the writers of a table. -/
inductive Event where
  /-- A writer is opened under a name; what had the name before is not heard of again. -/
  | opened (name : String) (codec : Value) (schema : Avro.Schema)
  | write (name : String) (row : Value)
  | flush (name : String)
  | close (name : String)
  /-- The next operations of the disk fail as it is said, and commits are dated with this time. -/
  | disturbed (faults : List Fault) (now : DateTime)

namespace Event

def apply (t : Table) : Event → Fleet → Fleet
  | .opened name codec schema, f => ((launch name (Writer.create t codec schema)).run f).state
  | .write name row, f => ((onWriter name (Writer.write row)).run f).state
  | .flush name, f => ((onWriter name Writer.flush).run f).state
  | .close name, f => ((onWriter name Writer.close).run f).state
  | .disturbed faults now, f => { f with disk := { f.disk with faults := faults, now := now } }

/-- The writer that is flushed: by name, or because it is closed. -/
def flushed? : Event → Fleet → Option Writer
  | .flush name, f => f.writer? name
  | .close name, f => (f.writer? name).filter fun w => !w.closed
  | _, _ => none

/-- The writer that commits its rows, with the rows that it commits. -/
def author? (e : Event) (f : Fleet) : Option Writer :=
  (e.flushed? f).filter fun w => w.commits f.disk

end Event

def after (t : Table) (events : List Event) (f : Fleet) : Fleet :=
  events.foldl (fun f e => e.apply t f) f

/-- The writers that commit rows, each as it is when it commits them. -/
def authors (t : Table) : List Event → Fleet → List Writer
  | [], _ => []
  | e :: rest, f => (e.author? f).toList ++ authors t rest (e.apply t f)

section Steps

variable {α : Type} {t : Table} {f : Fleet} {name : String} {w : Writer} {writers : List Writer}
  {commits : List Commit}

/-- All writers are open on one table. -/
def Shares (t : Table) (f : Fleet) : Prop := ∀ e ∈ f.writers, e.2.table = t

theorem Shares.writer (h : f.Shares t) (hw : f.writer? name = some w) : w.table = t := by
  rw [writer?, Option.map_eq_some_iff] at hw
  obtain ⟨e, he, rfl⟩ := hw
  exact h e (List.mem_of_find?_eq_some he)

theorem Shares.put (h : f.Shares t) (hw : w.table = t) : (f.put name w).Shares t := by
  intro e he
  obtain rfl | he := List.mem_cons.mp he
  · exact hw
  · exact h e (List.mem_filter.mp he).1

theorem onWriter_none (h : f.writer? name = none) (a : Action (Writer × Disk) α) :
    ((onWriter name a).run f).state = f := by
  simp only [onWriter, run, h]

theorem onWriter_some (h : f.writer? name = some w) (a : Action (Writer × Disk) α) :
    ((onWriter name a).run f).state =
      { f.put name (a.run (w, f.disk)).state.1 with disk := (a.run (w, f.disk)).state.2 } := by
  simp only [onWriter, run, h]

theorem onWriter_leads {a : Action (Writer × Disk) α} (hf : f.Shares t)
    (hnone : f.writer? name = none → Leads t commits f.disk writers f.disk)
    (hsome : ∀ w, f.writer? name = some w → w.table = t →
      (a.run (w, f.disk)).state.1.table = t ∧
        Leads t commits f.disk writers (a.run (w, f.disk)).state.2) :
    ((onWriter name a).run f).state.Shares t ∧
      Leads t commits f.disk writers ((onWriter name a).run f).state.disk := by
  cases hw : f.writer? name with
  | none =>
    rw [onWriter_none hw]
    exact ⟨hf, hnone hw⟩
  | some w =>
    obtain ⟨htable, hleads⟩ := hsome w hw (hf.writer hw)
    rw [onWriter_some hw]
    exact ⟨hf.put htable, hleads⟩

/-- One event adds the version of the writer that commits with it, if there is one. -/
theorem apply_leads (ht : t.IsStraight) (hf : f.Shares t) (h : Chronicle t f.disk writers commits) (e : Event) :
    (e.apply t f).Shares t ∧
      Leads t commits f.disk (writers ++ (e.author? f).toList) (e.apply t f).disk := by
  have hidle : Leads t commits f.disk (writers ++ []) f.disk := by
    rw [List.append_nil]
    exact h.of_spares (Spares.refl t f.disk)
  cases e with
  | opened name codec schema =>
    refine Ends.state (R := fun f' : Fleet => f'.Shares t ∧
      Leads t commits f.disk (writers ++ []) f'.disk) ?_
    simp only [launch, onDisk, ends_bind, ends_focus, ends_modify, ends_pure]
    refine (Writer.create_ends t codec schema f.disk).mono (fun w d' hw => ?_) fun _ d' hd' => ?_
    · obtain ⟨htable, -, -, -, hfolders⟩ := hw
      rw [List.append_nil]
      exact ⟨Shares.put hf htable, h.of_spares (makeFolders_spares ht hfolders)⟩
    · rw [hd']
      exact ⟨hf, hidle⟩
  | write name row =>
    refine onWriter_leads hf (fun _ => hidle) fun w _ htable => ?_
    have hstate : ((Writer.write row).run (w, f.disk)).state.1.table = w.table ∧
        ((Writer.write row).run (w, f.disk)).state.2 = f.disk := by
      refine Ends.state (R := fun x : Writer × Disk => x.1.table = w.table ∧ x.2 = f.disk) ?_
      refine (Writer.write_ends row w f.disk).mono (fun _ x hx => ?_) fun _ x hx => ?_
      · rw [hx]
        exact ⟨rfl, rfl⟩
      · rw [hx]
        exact ⟨rfl, rfl⟩
    rw [hstate.1, hstate.2]
    exact ⟨htable, hidle⟩
  | flush name =>
    refine onWriter_leads hf (fun hw => ?_) fun w hw htable => ?_
    · rw [Event.author?, Event.flushed?, hw]
      exact hidle
    · rw [Event.author?, Event.flushed?, hw, Option.toList_filter, Option.toList_some]
      exact ⟨(Writer.flush_table w f.disk).trans htable, h.flush htable⟩
  | close name =>
    refine onWriter_leads hf (fun hw => ?_) fun w hw htable => ?_
    · rw [Event.author?, Event.flushed?, hw]
      exact hidle
    · obtain ⟨hsame, hdisk⟩ := Writer.close_state w f.disk
      refine ⟨hsame.trans htable, ?_⟩
      -- A writer is flushed as it is closed, but not when it is closed again.
      rw [Event.author?, Event.flushed?, hw, hdisk, Option.toList_filter, Option.toList_filter,
        Option.toList_some]
      cases hclosed : w.closed with
      | true =>
        have hnone : [w].filter (fun w => !w.closed) = [] := by simp [hclosed]
        rw [hnone, if_pos rfl]
        exact hidle
      | false =>
        have hone : [w].filter (fun w => !w.closed) = [w] := by simp [hclosed]
        rw [hone, if_neg Bool.false_ne_true]
        exact h.flush htable
  | disturbed faults now =>
    refine ⟨hf, ?_⟩
    show Leads t commits f.disk (writers ++ []) { f.disk with faults := faults, now := now }
    rw [List.append_nil]
    exact h.of_spares ⟨rfl, fun _ _ _ => rfl⟩

/-- What a table's chronicle says before a run it says after it, and maybe more. -/
theorem after_leads (ht : t.IsStraight) (events : List Event) (hf : f.Shares t)
    (h : Chronicle t f.disk writers commits) :
    (after t events f).Shares t ∧
      Leads t commits f.disk (writers ++ authors t events f) (after t events f).disk := by
  induction events generalizing f writers commits with
  | nil =>
    rw [authors, List.append_nil]
    exact ⟨hf, h.of_spares (Spares.refl t f.disk)⟩
  | cons e rest ih =>
    obtain ⟨hf', more, h', hkeeps⟩ := apply_leads ht hf h e
    obtain ⟨hf'', hrest⟩ := ih hf' h'
    rw [authors, ← List.append_assoc]
    exact ⟨hf'', hrest.trans hkeeps⟩

theorem after_chronicle (ht : t.IsStraight) {d : Disk} (hnew : d.content? t.manifestPath = none)
    (events : List Event) :
    (after t events ⟨d, []⟩).Shares t ∧ ∃ commits,
      Chronicle t (after t events ⟨d, []⟩).disk (authors t events ⟨d, []⟩) commits := by
  obtain ⟨hshares, commits, h, -⟩ :=
    after_leads ht events (f := ⟨d, []⟩) (List.forall_mem_nil _) (chronicle_start hnew)
  exact ⟨hshares, commits, h⟩

end Steps

/-- However many writers share a table on a straight path, and whatever fails, its manifest counts the versions from
one and lists each with a file of its own; each entry says how many rows its file holds, and each is
the buffer of the writer that committed it, under that writer's fingerprint; and no listed version
ever changes.  The rows of the table are the committed buffers read back, in order: there are as
many as the entries say just when each buffer can be read back. -/
theorem versions_well_formed (t : Table) (ht : t.IsStraight) (d : Disk)
    (hnew : d.content? t.manifestPath = none) (events : List Event) :
    let f := after t events ⟨d, []⟩
    let writers := authors t events ⟨d, []⟩
    ∃ commits : List Commit,
      t.currentVersion f.disk = .ok (.int commits.length) ∧
      t.versions f.disk = .ok (commits.map Commit.entry) ∧
      commits.map Commit.version = (List.range commits.length).map (fun i : Nat => (i : Int) + 1) ∧
      (commits.map Commit.file).Nodup ∧
      List.Forall₂ Commit.IsOf commits writers ∧
      (∀ c ∈ commits,
        t.versionOverview f.disk c.entry = .ok ⟨.int c.version, .str ("data/" ++ c.file),
          .int c.rows.length, .str c.fingerprint, true⟩ ∧
        ∃ file, f.disk.content? (t.dataFolder.child c.file) = some (.rows file) ∧
          file.data.length = c.rows.length) ∧
      (∀ later, ∃ more,
        t.versions (after t later f).disk = .ok ((commits ++ more).map Commit.entry) ∧
        ∀ c ∈ commits, (after t later f).disk.content? (t.dataFolder.child c.file) =
          f.disk.content? (t.dataFolder.child c.file)) ∧
      t.rows f.disk = (writers.mapM Writer.readBack).map List.flatten ∧
      ((∃ rows, t.rows f.disk = .ok rows ∧ rows.length = Commit.total commits) ↔
        ∀ w ∈ writers, ∃ rows, w.readBack = .ok rows) := by
  intro f writers
  obtain ⟨hshares, commits, h⟩ := after_chronicle ht hnew events
  refine ⟨commits, h.current, h.listed, h.numbered, h.files_nodup,
    h.authored.imp fun _ _ hw => hw.1, fun c hc => ?_, fun later => ?_, h.rows_eq, ?_⟩
  · obtain ⟨codec, hdisk⟩ := h.onDisk c hc
    exact ⟨hdisk.versionOverview, hdisk.dataFile⟩
  · obtain ⟨-, more, hlater, hkeeps⟩ := after_leads ht later hshares h
    exact ⟨more, hlater.listed, hkeeps⟩
  · rw [← h.readable_iff]
    exact ⟨fun ⟨rows, hrows, _⟩ => ⟨rows, hrows⟩,
      fun ⟨rows, hrows⟩ => ⟨rows, hrows, h.rows_length hrows⟩⟩

def orders : Table := ⟨.ofText "lake", "orders"⟩

theorem orders_straight : orders.IsStraight := by decide

def numberedOrder : Avro.Schema := .record false "Order" [(⟨.str "id", []⟩, .primitive .long)] []

def namedOrder : Avro.Schema := .record false "Order" [(⟨.str "name", []⟩, .primitive .string)] []

/-- Two writers with different schemas.  A flush of the first fails when its file should take its
place, so that the other one commits before it. -/
def rivals : List Event :=
  [.opened "a" (.str "null") numberedOrder, .opened "b" (.str "deflate") namedOrder,
    .write "a" (Value.ofFields [("id", .int 1)]), .write "b" (Value.ofFields [("name", .str "x")]),
    .disturbed [.none, .none, .refused] .epoch, .flush "a", .flush "b", .close "a"]

theorem rivals_committed : ∃ commits : List Commit,
    orders.versions (after orders rivals .start).disk = .ok (commits.map Commit.entry) ∧
      commits.map Commit.version = [1, 2] ∧
      ∃ rows, orders.rows (after orders rivals .start).disk = .ok rows ∧ rows.length = 2 := by
  have hauthors : (authors orders rivals .start).map (fun w => w.buffer.length) = [1, 1] := by
    decide +kernel
  have hreadable : (authors orders rivals .start).all
      (fun w => Except.passes (fun _ => true) w.readBack) = true := by
    decide +kernel
  obtain ⟨commits, -, hversions, hnumbered, -, hof, -, -, -, hrows⟩ :=
    versions_well_formed orders orders_straight .empty rfl rivals
  replace hof : List.Forall₂ Commit.IsOf commits (authors orders rivals .start) := hof
  have hlengths : commits.map (fun c => c.rows.length) = [1, 1] := by
    rw [← hauthors, ← List.forall₂_eq_eq_eq, List.forall₂_map_left_iff, List.forall₂_map_right_iff]
    exact hof.imp fun c w hw => congrArg List.length hw.rows
  have hlength : commits.length = 2 := by
    simpa using congrArg List.length hlengths
  refine ⟨commits, hversions, ?_, ?_⟩
  · rw [hnumbered, hlength]
    rfl
  · obtain ⟨rows, hok, hcount⟩ := hrows.mpr fun w hw => by
      obtain ⟨rows, hrows, -⟩ := Except.of_passes (List.all_eq_true.mp hreadable w hw)
      exact ⟨rows, hrows⟩
    rw [Commit.total, hlengths] at hcount
    exact ⟨rows, hok, hcount⟩

/-- A moment as it is stored, in milliseconds, the first after the year 9999. -/
def farMoment : Value := Value.ofFields [("at", .int 253402300800000)]

def momentNode : Value :=
  Value.ofFields [("type", .str "record"), ("name", .str "Event"),
    ("fields", .list [Value.ofFields [("name", .str "at"),
      ("type", PlainValue.logicalNode "long" "timestamp-millis")]])]

/-- A moment that no date stands for fits the schema and is committed, and then the table cannot be
read. -/
theorem committed_unreadable : ∃ s, Avro.Schema.parse momentNode = .ok s ∧
    s.fits farMoment = .ok true ∧
    let events : List Event := [.opened "a" (.str "null") s, .write "a" farMoment, .flush "a"]
    let d := (after orders events .start).disk
    ∃ commits : List Commit, orders.versions d = .ok (commits.map Commit.entry) ∧
      Commit.total commits = 1 ∧ ¬∃ rows, orders.rows d = .ok rows := by
  have hrun : Except.passes (fun s =>
      let events : List Event := [.opened "a" (.str "null") s, .write "a" farMoment, .flush "a"]
      Except.passes id (s.fits farMoment) &&
        (authors orders events .start).map (fun w => w.buffer.length) == [1] &&
        !Except.passes (fun _ => true) (orders.rows (after orders events .start).disk))
      (Avro.Schema.parse momentNode) = true := by
    decide +kernel
  obtain ⟨s, hs, hrun⟩ := Except.of_passes hrun
  simp only [Bool.and_eq_true, Bool.not_eq_true', beq_iff_eq] at hrun
  obtain ⟨⟨hfits, hauthors⟩, hunread⟩ := hrun
  obtain ⟨fits, hfits, rfl⟩ := Except.of_passes hfits
  obtain ⟨-, commits, h⟩ := after_chronicle orders_straight (d := .empty) rfl
    [.opened "a" (.str "null") s, .write "a" farMoment, .flush "a"]
  refine ⟨s, hs, hfits, commits, h.listed, ?_, fun ⟨rows, hrows⟩ => ?_⟩
  · rw [Commit.total, h.lengths_eq]
    exact congrArg (List.foldr (· + ·) 0) hauthors
  · rw [hrows] at hunread
    cases hunread

end Fleet
end Store
end StreamTable
