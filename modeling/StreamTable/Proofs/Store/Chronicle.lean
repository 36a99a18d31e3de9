/-
The versions of a table that several writers share.  Writers are opened on one table, each with a
schema and a codec of its own, and their calls come in any order, while the disk fails as it likes.
If the table had no manifest before, its versions are numbered from one without a gap, and each of
them is what one writer had in its buffer: the data file is there, and the entry says how many rows
it holds and by which schema they were written.  What is listed stays as it is.

That rows are committed does not say that they can be read again.  A writer takes what fits its
schema, and among that are values of logical types that stand for nothing; one of them is enough to
make the table unreadable.
-/
import Mathlib.Data.List.Nodup
import StreamTable.Proofs.Action.Results
import StreamTable.Proofs.Store.Commit
import StreamTable.Store.Fleet
import StreamTable.Store.Overview

namespace StreamTable

namespace Store

open StreamTable.Action

namespace DataFile

theorem ofRows_length {schema : Avro.Schema} {codec : Value} {rows : List Value} {file : DataFile}
    (h : ofRows schema codec rows = .ok file) : file.data.length = rows.length := by
  obtain ⟨settled, -, h⟩ := Except.of_bind_ok h
  obtain ⟨codec, -, h⟩ := Except.of_bind_ok h
  obtain ⟨data, hdata, h⟩ := Except.of_bind_ok h
  cases h
  exact Except.length_of_mapM (Except.ok_of_mapError hdata)

theorem rows_length {file : DataFile} {rows : List Value} (h : file.rows = .ok rows) :
    rows.length = file.data.length := by
  obtain ⟨schema, -, h⟩ := Except.of_bind_ok h
  exact Except.length_of_mapM (Except.ok_of_mapError h)

end DataFile

namespace Writer

variable {w : Writer} {d : Disk}

/-- Whether a writer commits rows when it is flushed: it has some, and the flush is done. -/
def commits (w : Writer) (d : Disk) : Bool :=
  !w.buffer.isEmpty && Except.passes id (flush.run (w, d)).result

/-- The rows in a writer's buffer, as they are read from a data file of theirs. -/
def readBack (w : Writer) : Except Failure (List Value) := do
  let file ← DataFile.ofRows w.schema w.codec w.buffer
  file.rows

/-- No row is lost on the way to a data file and back. -/
theorem readBack_length {rows : List Value} (h : w.readBack = .ok rows) :
    rows.length = w.buffer.length := by
  obtain ⟨file, hfile, hrows⟩ := Except.of_bind_ok h
  exact (DataFile.rows_length hrows).trans (DataFile.ofRows_length hfile)

theorem flush_table (w : Writer) (d : Disk) : (flush.run (w, d)).state.1.table = w.table :=
  (congrArg Writer.table (flush_writer (w, d)) :)

/-- Closing a writer does to the disk what flushing it does, unless it is closed already. -/
theorem close_state (w : Writer) (d : Disk) :
    (close.run (w, d)).state.1.table = w.table ∧
      (close.run (w, d)).state.2 = if w.closed then d else (flush.run (w, d)).state.2 := by
  refine Ends.state (R := fun x : Writer × Disk => x.1.table = w.table ∧
    x.2 = if w.closed then d else (flush.run (w, d)).state.2) ?_
  simp only [close, ends_bind, ends_get]
  rw [ends_ite]
  refine ⟨fun hclosed => ?_, fun hopen => ?_⟩
  · rw [if_pos hclosed]
    exact ⟨rfl, rfl⟩
  · rw [if_neg hopen, ends_bind]
    have htable := flush_table w d
    refine (ends_of_state (R := fun x => x = (flush.run (w, d)).state) rfl).mono
      (fun done x hx => ?_) fun _ x hx => ?_
    · cases done with
      | true =>
        rw [hx]
        exact ⟨htable, rfl⟩
      | false =>
        rw [hx]
        exact ⟨htable, rfl⟩
    · rw [hx]
      exact ⟨htable, rfl⟩

end Writer

namespace Commit

/-- How many rows were committed, all together. -/
def total (commits : List Commit) : Nat :=
  (commits.map fun c => c.rows.length).foldr (· + ·) 0

theorem length_flatten_readBack {commits : List Commit} {authors : List Writer}
    {parts : List (List Value)} (h : List.Forall₂ IsOf commits authors)
    (hparts : List.Forall₂ (fun w part => w.readBack = .ok part) authors parts) :
    parts.flatten.length = total commits := by
  induction h generalizing parts with
  | nil =>
    cases hparts
    rfl
  | cons hw _ ih =>
    cases hparts with
    | cons hpart hrest =>
      rw [List.flatten_cons, List.length_append, Writer.readBack_length hpart, ← hw.rows, ih hrest]
      rfl

end Commit

namespace Table

theorem rows_of_versions {t : Table} {d : Disk} {vs : List Value} (h : t.versions d = .ok vs) :
    t.rows d = (vs.mapM fun v => do rowsIn d (← t.filePath v)).map List.flatten := by
  obtain ⟨m, hm, h⟩ := Except.of_bind_ok h
  have hrows : t.rows d = ((vs.mapM fun v => do rowsIn d (← t.filePath v)) >>= fun parts =>
      Pure.pure parts.flatten) := by
    rw [rows, hm]
    show ((Manifest.versions m).mapError Failure.data >>= _) = _
    rw [h]
    rfl
  rw [hrows]
  cases vs.mapM fun v => do rowsIn d (← t.filePath v) with
  | ok parts => rfl
  | error f => rfl

end Table

/-! ## The chronicle of a table -/

/-- What is known of the versions of a table that began without any: each is a commit of what one
writer held, in the order in which they were committed. -/
structure Chronicle (t : Table) (d : Disk) (authors : List Writer) (commits : List Commit) :
    Prop where
  current : t.currentVersion d = .ok (.int commits.length)
  listed : t.versions d = .ok (commits.map Commit.entry)
  numbered : commits.map Commit.version =
    (List.range commits.length).map fun i : Nat => (i : Int) + 1
  authored : List.Forall₂ (fun c w => c.IsOf w ∧ c.OnDisk t w.codec d) commits authors

/-- The data files of versions are on one disk as they are on another. -/
def Keeps (t : Table) (commits : List Commit) (d d' : Disk) : Prop :=
  ∀ c ∈ commits, d'.content? (Writer.dataPaths t c.version c.serial).2 =
    d.content? (Writer.dataPaths t c.version c.serial).2

/-- What a table has come to after some time: it may have more versions, and the ones that it had
are the same. -/
def Leads (t : Table) (commits : List Commit) (d : Disk) (authors : List Writer) (d' : Disk) :
    Prop :=
  ∃ more, Chronicle t d' authors (commits ++ more) ∧ Keeps t commits d d'

section Steps

variable {t : Table} {d d' d'' : Disk} {authors : List Writer} {commits : List Commit}

theorem Leads.trans {more : List Commit} (h : Leads t (commits ++ more) d' authors d'')
    (hk : Keeps t commits d d') : Leads t commits d authors d'' := by
  obtain ⟨most, hchronicle, hkeeps⟩ := h
  rw [List.append_assoc] at hchronicle
  exact ⟨more ++ most, hchronicle,
    fun c hc => (hkeeps c (List.mem_append_left _ hc)).trans (hk c hc)⟩

/-- A table without a manifest has no versions. -/
theorem chronicle_start (h : d.content? t.manifestPath = none) : Chronicle t d [] [] := by
  have hmanifest : t.manifest d = .ok (Manifest.empty t.title) := by
    rw [Table.manifest, h]
  obtain ⟨hcurrent, hversions⟩ := Manifest.empty_lists t.title
  refine ⟨?_, ?_, rfl, .nil⟩
  · rw [Table.currentVersion, hmanifest]
    exact congrArg (Except.mapError Failure.data) hcurrent
  · rw [Table.versions, hmanifest]
    exact congrArg (Except.mapError Failure.data) hversions

namespace Chronicle

variable (h : Chronicle t d authors commits)
include h

theorem next : t.nextVersion d = .ok (commits.length + 1) := Table.nextVersion_of_current h.current

theorem version_mem {c : Commit} (hc : c ∈ commits) : c.version < commits.length + 1 := by
  have hmem : c.version ∈ commits.map Commit.version := List.mem_map_of_mem hc
  rw [h.numbered] at hmem
  obtain ⟨i, hi, hversion⟩ := List.mem_map.mp hmem
  have := List.mem_range.mp hi
  omega

theorem authored_of_keeps (hk : Keeps t commits d d') :
    List.Forall₂ (fun c w => c.IsOf w ∧ c.OnDisk t w.codec d') commits authors := by
  rw [List.forall₂_iff_zip]
  refine ⟨h.authored.length_eq, fun {c w} hmem => ?_⟩
  obtain ⟨hof, hdisk⟩ := (List.forall₂_iff_zip.mp h.authored).2 hmem
  exact ⟨hof, hdisk.congr (hk c (List.of_mem_zip hmem).1)⟩

/-- What spares the versions of the table adds none. -/
theorem of_spares (hs : Spares t d d') : Leads t commits d authors d' := by
  have hkeeps : Keeps t commits d d' := fun c hc => hs.dataFile _ _ fun next hnext => by
    rw [← Except.ok.inj (h.next.symm.trans hnext)]
    exact h.version_mem hc
  refine ⟨[], ?_, hkeeps⟩
  rw [List.append_nil]
  exact ⟨(Table.currentVersion_congr hs.manifest).trans h.current,
    (Table.versions_congr hs.manifest).trans h.listed, h.numbered, h.authored_of_keeps hkeeps⟩

/-- A commit adds one version, the last, and its number follows the one before. -/
theorem commit {c : Commit} {w : Writer} (hc : c.Extends t w.codec d d') (hw : c.IsOf w) :
    Leads t commits d (authors ++ [w]) d' := by
  have hversion : c.version = commits.length + 1 := Except.ok.inj (hc.next.symm.trans h.next)
  have hkeeps : Keeps t commits d d' := fun c' hc' => hc.dataFile (by
    rw [hversion]
    exact h.version_mem hc') _
  obtain ⟨vs, hvs, hvs'⟩ := hc.listed
  obtain rfl : vs = commits.map Commit.entry := Except.ok.inj (hvs.symm.trans h.listed)
  refine ⟨[c], ⟨?_, ?_, ?_, ?_⟩, hkeeps⟩
  · rw [hc.current, hversion, List.length_append, List.length_singleton]
    rfl
  · rw [hvs', List.map_append]
    rfl
  · rw [List.length_append, List.length_singleton, List.range_succ, List.map_append,
      List.map_append, h.numbered]
    simp [hversion]
  · exact List.rel_append (h.authored_of_keeps hkeeps) (.cons ⟨hw, hc.onDisk⟩ .nil)

/-- A flush adds a version with the rows of the writer just when it says that it is done with
them. -/
theorem flush {w : Writer} (hw : w.table = t) :
    Leads t commits d (authors ++ [w].filter fun w => w.commits d)
      (Writer.flush.run (w, d)).state.2 := by
  subst hw
  -- All ends of a flush but one leave the versions alone.
  have hin_vain (hc : w.commits d = false)
      (hs : Spares w.table d (Writer.flush.run (w, d)).state.2) :
      Leads w.table commits d (authors ++ [w].filter fun w => w.commits d)
        (Writer.flush.run (w, d)).state.2 := by
    have hnone : [w].filter (fun w => w.commits d) = [] := by simp [hc]
    rw [hnone, List.append_nil]
    exact h.of_spares hs
  by_cases hbuffer : w.buffer = []
  · have hstate : (Writer.flush.run (w, d)).state = (w, d) :=
      Ends.state (R := fun x => x = (w, d)) ((Writer.flush_ends_of_empty hbuffer).mpr rfl)
    refine hin_vain (by simp [Writer.commits, hbuffer]) ?_
    rw [hstate]
    exact Spares.refl _ d
  · have hends := Writer.flush_ends (d := d) hbuffer
    have hempty : w.buffer.isEmpty = false := by simpa using hbuffer
    unfold Ends at hends
    cases hresult : (Writer.flush.run (w, d)).result with
    | error f =>
      rw [hresult] at hends
      exact hin_vain (by simp [Writer.commits, hresult, Except.passes]) hends.2.spares
    | ok done =>
      rw [hresult] at hends
      cases done with
      | false =>
        exact hin_vain (by simp [Writer.commits, hresult, Except.passes]) hends.2.spares
      | true =>
        obtain ⟨-, c, hof, hextends⟩ := hends
        have hone : [w].filter (fun w => w.commits d) = [w] := by
          simp [Writer.commits, hempty, hresult, Except.passes]
        rw [hone]
        exact h.commit hextends hof

/-! ### What a reader of the table finds -/

theorem files_nodup : (commits.map Commit.file).Nodup := by
  have hversions : (commits.map Commit.version).Nodup := by
    rw [h.numbered]
    exact List.nodup_range.map fun i j hij => by
      have : (i : Int) + 1 = (j : Int) + 1 := hij
      omega
  refine List.pairwise_map.mpr ((List.pairwise_map.mp hversions).imp fun hne hfile => ?_)
  exact hne (Manifest.dataName_inj hfile)

theorem onDisk : ∀ c ∈ commits, ∃ codec, c.OnDisk t codec d := by
  have hall : List.Forall₂ (fun c w => (∃ codec, c.OnDisk t codec d) ∧ c.IsOf w) commits authors :=
    h.authored.imp fun _ w hw => ⟨⟨w.codec, hw.2⟩, hw.1⟩
  exact ((List.forall₂_and_left commits authors).mp hall).1

/-- The rows of the table are those of its versions' writers, read back. -/
theorem rows_eq : t.rows d = (authors.mapM Writer.readBack).map List.flatten := by
  have hentries : (commits.map Commit.entry).mapM (fun v => do Table.rowsIn d (← t.filePath v)) =
      authors.mapM Writer.readBack := by
    refine Except.mapM_congr (List.forall₂_map_left_iff.mpr (h.authored.imp fun c w hw => ?_))
    obtain ⟨hof, path, file, hpath, hrows, hcontent⟩ := hw
    rw [hof.schema, hof.rows] at hrows
    rw [hpath, Writer.readBack, hrows]
    show Table.rowsIn d path = file.rows
    rw [Table.rowsIn, hcontent]
  rw [Table.rows_of_versions h.listed, hentries]

theorem lengths_eq :
    commits.map (fun c => c.rows.length) = authors.map fun w => w.buffer.length := by
  rw [← List.forall₂_eq_eq_eq, List.forall₂_map_left_iff, List.forall₂_map_right_iff]
  exact h.authored.imp fun c w hw => congrArg List.length hw.1.rows

/-- If the table can be read it has as many rows as its entries say. -/
theorem rows_length {rows : List Value} (hrows : t.rows d = .ok rows) :
    rows.length = Commit.total commits := by
  rw [h.rows_eq] at hrows
  cases hparts : authors.mapM Writer.readBack with
  | error f =>
    rw [hparts] at hrows
    cases hrows
  | ok parts =>
    rw [hparts] at hrows
    obtain rfl : parts.flatten = rows := Except.ok.inj hrows
    exact Commit.length_flatten_readBack (h.authored.imp fun _ _ hw => hw.1)
      (Except.mapM_ok_iff.mp hparts)

/-- The table can be read just when each of the committed buffers can be read back. -/
theorem readable_iff :
    (∃ rows, t.rows d = .ok rows) ↔ ∀ w ∈ authors, ∃ rows, w.readBack = .ok rows := by
  rw [h.rows_eq, ← Except.mapM_isOk_iff]
  cases authors.mapM Writer.readBack with
  | error f =>
    constructor
    · rintro ⟨rows, hrows⟩
      cases hrows
    · rintro ⟨parts, hparts⟩
      cases hparts
  | ok parts => exact ⟨fun _ => ⟨parts, rfl⟩, fun _ => ⟨parts.flatten, rfl⟩⟩

end Chronicle

end Steps

namespace Commit

variable {c : Commit} {t : Table} {codec : Value} {d : Disk} (h : c.OnDisk t codec d)
include h

theorem OnDisk.dataFile : ∃ file, d.content? (t.dataFolder.child c.file) = some (.rows file) ∧
    file.data.length = c.rows.length := by
  obtain ⟨path, file, hpath, hrows, hcontent⟩ := h
  obtain rfl := Except.ok.inj ((t.filePath_entry _ _ _ _ _).symm.trans hpath)
  exact ⟨file, hcontent, DataFile.ofRows_length hrows⟩

/-- What the entry of a version says, and that its file is there. -/
theorem OnDisk.versionOverview :
    t.versionOverview d c.entry = .ok ⟨.int c.version, .str ("data/" ++ c.file),
      .int c.rows.length, .str c.fingerprint, true⟩ := by
  obtain ⟨path, file, hpath, -, hcontent⟩ := h
  have hthere : d.isThere path = true := by rw [Disk.isThere, hcontent]; rfl
  have hpart : ∀ part ∈ [("version", .int c.version), ("file", .str ("data/" ++ c.file)),
      ("rows", .int c.rows.length), ("schema_fingerprint", .str c.fingerprint)],
      Manifest.part c.entry part.1 = .ok part.2 := by
    simp [Manifest.part, entry, Manifest.entry, Value.ofFields, Value.field?, Value.lookup,
      Value.same]
  simp only [List.forall_mem_cons] at hpart
  obtain ⟨hversion, hfile, hrows, hfingerprint, -⟩ := hpart
  rw [Table.versionOverview, hpath, ← hthere]
  dsimp only
  rw [hversion, hfile, hrows, hfingerprint]
  rfl

end Commit

end Store
end StreamTable
