/-
Commits that are cut off.  A commit is four file operations, and only the last of them, the one that
moves the new manifest to its place, is seen by a reader of the table: until then the files that are
listed are the ones that were listed before, and from then on there is one more.  So a reader finds
all rows of a commit or none, wherever the commit stops, and after a failure what is left of it is
removed, so that the rows can be committed again.

Whether the rows of a commit can be read is another matter.  Rows are taken that can be encoded, and
some of these cannot be decoded again.
-/
import StreamTable.Proofs.Store.SharedTable
import StreamTable.Proofs.Store.Undertaking

namespace StreamTable
namespace Store

open StreamTable.Action

/-! ## What a reader sees of other files -/

namespace Table

variable {t : Table} {d d' : Disk} {ps : List Path}

/-- The files that the versions of a table lead to stand at other places than some. -/
def Apart (t : Table) (d : Disk) (ps : List Path) : Prop :=
  ∀ vs, t.versions d = .ok vs → ∀ v ∈ vs, ∀ p, t.filePath v = .ok p →
    ∀ q ∈ ps, p.normal ≠ q.normal

/-- Every file that the manifest lists is there. -/
def Complete (t : Table) (d : Disk) : Prop :=
  ∀ vs, t.versions d = .ok vs → ∀ v ∈ vs, ∃ p, t.filePath v = .ok p ∧ d.isThere p = true

/-- A reader of the table finds the same on both disks. -/
structure LooksAlike (t : Table) (d d' : Disk) : Prop where
  manifest : d'.content? t.manifestPath = d.content? t.manifestPath
  rows : t.rows d' = t.rows d
  complete : t.Complete d → t.Complete d'

theorem rows_of_versions_error {f : Failure} (h : t.versions d = .error f) :
    t.rows d = .error f := by
  unfold versions at h
  unfold rows
  cases hm : t.manifest d with
  | error g =>
    rw [hm] at h
    exact h
  | ok m =>
    rw [hm] at h
    show ((Manifest.versions m).mapError Failure.data >>= _) = _
    rw [show (Manifest.versions m).mapError Failure.data = .error f from h]
    rfl

/-- The rows of listed files that stand as they did. -/
theorem parts_congr {vs : List Value}
    (h : ∀ v ∈ vs, ∀ p, t.filePath v = .ok p → d'.content? p = d.content? p) :
    vs.mapM (fun v => do rowsIn d' (← t.filePath v)) =
      vs.mapM (fun v => do rowsIn d (← t.filePath v)) := by
  refine Except.mapM_congr (List.forall₂_same.mpr fun v hv => ?_)
  cases hp : t.filePath v with
  | error f => rfl
  | ok p =>
    show rowsIn d' p = rowsIn d p
    rw [rowsIn, rowsIn, h v hv p hp]

theorem Complete.congr {vs vs' : List Value} (hvs : t.versions d = .ok vs)
    (hvs' : t.versions d' = .ok vs') (hold : t.Complete d)
    (h : ∀ v ∈ vs, ∀ p, t.filePath v = .ok p → d'.content? p = d.content? p)
    (hnew : ∀ v ∈ vs', v ∉ vs → ∃ p, t.filePath v = .ok p ∧ d'.isThere p = true) :
    t.Complete d' := by
  intro us hus v hv
  obtain rfl := Except.ok.inj (hus.symm.trans hvs')
  by_cases hmem : v ∈ vs
  · obtain ⟨p, hp, hthere⟩ := hold vs hvs v hmem
    refine ⟨p, hp, ?_⟩
    rwa [Disk.isThere, h v hmem p hp]
  · exact hnew v hv hmem

/-- What is changed apart from the manifest and the files that it lists is not seen. -/
theorem looksAlike_of_sameBut (hs : Disk.SameBut ps d d')
    (hmanifest : ∀ q ∈ ps, t.manifestPath.normal ≠ q.normal) (hapart : t.Apart d ps) :
    t.LooksAlike d d' := by
  have hsame : d'.content? t.manifestPath = d.content? t.manifestPath := hs _ hmanifest
  have hversions : t.versions d' = t.versions d := versions_congr hsame
  cases hvs : t.versions d with
  | error f =>
    refine ⟨hsame, ?_, fun _ us hus => ?_⟩
    · rw [rows_of_versions_error hvs, rows_of_versions_error (hversions.trans hvs)]
    · cases hus.symm.trans (hversions.trans hvs)
  | ok vs =>
    have hfiles : ∀ v ∈ vs, ∀ p, t.filePath v = .ok p → d'.content? p = d.content? p :=
      fun v hv p hp => hs p (hapart vs hvs v hv p hp)
    refine ⟨hsame, ?_, fun hold => ?_⟩
    · rw [rows_of_versions hvs, rows_of_versions (hversions.trans hvs), parts_congr hfiles]
    · exact hold.congr hvs (hversions.trans hvs) hfiles fun v hv hnot => absurd hv hnot

/-- A reader finds one version more, the last, with the rows that a writer held. -/
structure Gains (t : Table) (w : Writer) (d d' : Disk) : Prop where
  listed : ∃ c : Commit, c.IsOf w ∧ ∃ vs, t.versions d = .ok vs ∧
    t.versions d' = .ok (vs ++ [c.entry])
  rows : ∀ old, t.rows d = .ok old → t.rows d' = w.readBack.map (old ++ ·)
  complete : t.Complete d → t.Complete d'

theorem gains_of_extends {c : Commit} {w : Writer} (h : c.Extends t w.codec d d') (hof : c.IsOf w)
    (hapart : t.Apart d (t.manifestPath :: Writer.scratch t c.version c.serial)) :
    t.Gains w d d' := by
  obtain ⟨vs, hvs, hvs'⟩ := h.listed
  obtain ⟨path, file, hpath, hfile, hcontent⟩ := h.onDisk
  have hfiles : ∀ v ∈ vs, ∀ p, t.filePath v = .ok p → d'.content? p = d.content? p :=
    fun v hv p hp => h.frame p (hapart vs hvs v hv p hp)
  have hback : w.readBack = (rowsIn d' path) := by
    rw [hof.schema, hof.rows] at hfile
    rw [Writer.readBack, hfile, rowsIn, hcontent]
    rfl
  refine ⟨⟨c, hof, vs, hvs, hvs'⟩, fun old hold => ?_, fun hold => ?_⟩
  · rw [rows_of_versions hvs] at hold
    rw [rows_of_versions hvs', List.mapM_append, parts_congr hfiles, hback]
    cases hparts : vs.mapM fun v => do rowsIn d (← t.filePath v) with
    | error f =>
      rw [hparts] at hold
      cases hold
    | ok parts =>
      rw [hparts] at hold
      obtain rfl : parts.flatten = old := Except.ok.inj hold
      simp only [List.mapM_cons, List.mapM_nil, hpath]
      show Except.map _ (rowsIn d' path >>= _ >>= _) = _
      cases rowsIn d' path with
      | error f => rfl
      | ok rows =>
        show Except.ok (parts ++ [rows]).flatten = Except.ok (parts.flatten ++ rows)
        rw [List.flatten_append, List.flatten_singleton]
  · refine hold.congr hvs hvs' hfiles fun v hv hnot => ?_
    obtain rfl : v = c.entry := by simpa [hnot] using hv
    exact ⟨path, hpath, by rw [Disk.isThere, hcontent]; rfl⟩

end Table

/-! ## Commits that are cut off -/

namespace Writer

variable {w : Writer} {d d' : Disk} {u : Undertaking} {m : Value}

/-- As long as the new manifest is not in its place, only files beside it were changed. -/
theorem unfinished_sameBut (t : Table) (u : Undertaking) (d : Disk) {k : Nat}
    (h : ¬(4 ≤ k ∧ (FileOp.performAll ((u.ops t).take k) d).1 = true)) :
    Disk.SameBut (scratch t u.version u.serial) d
      (FileOp.performAll ((u.ops t).take k) d).2 := by
  by_cases hk : 4 ≤ k
  · have hall : (u.ops t).take k = u.ops t := List.take_of_length_le (by simpa [u.ops_eq] using hk)
    replace h : (FileOp.performAll (u.ops t) d).1 = false := by
      simpa [hall, hk] using h
    rw [hall]
    rw [Undertaking.ops, FileOp.performAll_append] at h ⊢
    have hdata : Disk.SameBut (scratch t u.version u.serial) d
        (FileOp.performAll (dataOps t u.version u.serial (.rows u.file)) d).2 :=
      (FileOp.performAll_sameBut _ d).mono (by simp [dataOps, FileOp.paths, scratch])
    rcases hrun : FileOp.performAll (dataOps t u.version u.serial (.rows u.file)) d
      with ⟨_ | _, d₁⟩
    · rw [hrun] at hdata
      exact hdata
    · rw [hrun] at h hdata
      exact hdata.trans ((FileOp.replace_failed h).mono (by simp [scratch]))
  · refine (FileOp.performAll_sameBut _ d).mono ?_
    obtain rfl | rfl | rfl | rfl : k = 0 ∨ k = 1 ∨ k = 2 ∨ k = 3 := by omega
    all_goals
      simp [u.ops_eq, FileOp.paths, scratch, Undertaking.draft, Undertaking.final]

/-- A commit of which all operations are done adds the version that it set out to add. -/
theorem finished_extends (h : w.Undertakes d u m) {e : Disk} (he : Disk.SameBut [] d e)
    (hdone : (FileOp.performAll (u.ops w.table) e).1 = true) :
    Commit.Extends ⟨u.version, u.serial, w.schema, w.buffer, w.fingerprint, d.now⟩ w.table w.codec d
      (FileOp.performAll (u.ops w.table) e).2 := by
  have hdata := writeData_ends u.version u.serial w e
  rw [ends_writeData h.file] at hdata
  obtain ⟨-, hsame, hfile⟩ := hdata
  rw [Undertaking.ops, FileOp.performAll_append] at hdone ⊢
  rcases hrun : FileOp.performAll (dataOps w.table u.version u.serial (.rows u.file)) e
    with ⟨_ | _, d₁⟩
  · rw [hrun] at hdone
    cases hdone
  · rw [hrun] at hdone hsame hfile
    exact extends_of_done h.manifest h.nextVersion ((he.mono (List.nil_subset _)).trans hsame)
      (hfile rfl) h.extend hdone

theorem cut_off (h : w.Undertakes d u m)
    (hapart : w.table.Apart d (w.table.manifestPath :: scratch w.table u.version u.serial))
    {e : Disk} (he : Disk.SameBut [] d e) (k : Nat) :
    let cut := FileOp.performAll ((u.ops w.table).take k) e
    if 4 ≤ k ∧ cut.1 = true then w.table.Gains w d cut.2 else w.table.LooksAlike d cut.2 := by
  intro cut
  split
  · next hdone =>
    obtain ⟨hk, hdone⟩ := hdone
    have hall : (u.ops w.table).take k = u.ops w.table :=
      List.take_of_length_le (by simpa [u.ops_eq] using hk)
    have hcut : cut = FileOp.performAll (u.ops w.table) e := by rw [← hall]
    rw [hcut] at hdone ⊢
    exact Table.gains_of_extends (finished_extends h he hdone) ⟨rfl, rfl, rfl⟩ hapart
  · next hcut =>
    have hsame := (he.mono (List.nil_subset _)).trans (unfinished_sameBut w.table u e hcut)
    exact Table.looksAlike_of_sameBut hsame manifestPath_notMem_scratch
      fun vs hvs v hv p hp q hq => hapart vs hvs v hv p hp q (List.mem_cons_of_mem _ hq)

/-- What stands in the place of a file that is deleted: nothing. -/
theorem deleted_sameBut {p : Path} (hp : p.normal.names ≠ []) (h : deleted p d = (true, d')) :
    Disk.SameBut [p] d d' ∧ d'.content? p = none := by
  unfold deleted at h
  by_cases hthere : d.isThere p = true
  · rw [if_pos hthere] at h
    have hsame := FileOp.perform_sameBut (.delete p) d
    have hdone := FileOp.carryOut?_of_perform h
    rw [h] at hsame
    simp only [FileOp.carryOut?, Option.ite_none_right_eq_some, Option.some.injEq] at hdone
    exact ⟨hsame, by rw [← hdone.2]; exact Disk.content?_remove_same _ hp⟩
  · rw [if_neg hthere] at h
    cases h
    exact ⟨Disk.SameBut.refl _ _, by simpa [Disk.isThere] using hthere⟩

theorem cleaned_sameBut (t : Table) (h : cleaned t u d = (true, d')) :
    Disk.SameBut (scratch t u.version u.serial) d d' ∧ d'.content? (u.draft t) = none ∧
      d'.content? (u.final t) = none := by
  have hdraft : (u.draft t).normal.names ≠ [] := by
    rw [Undertaking.draft, dataDraft_normal]
    exact Path.child_names_ne_nil _ _
  have hfinal : (u.final t).normal.names ≠ [] := by
    rw [Undertaking.final, dataFile_normal]
    exact Path.child_names_ne_nil _ _
  unfold cleaned at h
  rcases hrun : deleted (u.draft t) d with ⟨_ | _, d₁⟩
  · rw [hrun] at h
    cases h
  · rw [hrun] at h
    obtain ⟨hs₁, hgone₁⟩ := deleted_sameBut hdraft hrun
    obtain ⟨hs₂, hgone₂⟩ := deleted_sameBut hfinal h
    refine ⟨(hs₁.mono ?_).trans (hs₂.mono ?_), (hs₂ _ ?_).trans hgone₁, hgone₂⟩
    · simp [scratch, Undertaking.draft]
    · simp [scratch, Undertaking.final]
    · intro p hp
      rw [List.mem_singleton.mp hp]
      exact dataFile_ne_dataDraft.symm

end Writer

namespace Table

variable {t : Table} {w : Writer} {d d' d'' : Disk}

theorem LooksAlike.apart {ps : List Path} (h : t.LooksAlike d d') (hapart : t.Apart d ps) :
    t.Apart d' ps :=
  fun vs hvs => hapart vs ((versions_congr h.manifest).symm.trans hvs)

theorem LooksAlike.trans (h : t.LooksAlike d d') (h' : t.LooksAlike d' d'') :
    t.LooksAlike d d'' :=
  ⟨h'.manifest.trans h.manifest, h'.rows.trans h.rows, fun hold => h'.complete (h.complete hold)⟩

theorem LooksAlike.gains (h : t.LooksAlike d d') (h' : t.Gains w d' d'') : t.Gains w d d'' := by
  obtain ⟨⟨c, hof, vs, hvs, hvs'⟩, hrows, hcomplete⟩ := h'
  refine ⟨⟨c, hof, vs, (versions_congr h.manifest).symm.trans hvs, hvs'⟩, fun old hold => ?_, ?_⟩
  · exact hrows old (h.rows.trans hold)
  · exact fun hold => hcomplete (h.complete hold)

theorem looksAlike_of_sameBut_nil (h : Disk.SameBut [] d d') : t.LooksAlike d d' :=
  looksAlike_of_sameBut h (by simp) fun _ _ _ _ _ _ _ hq => absurd hq List.not_mem_nil

end Table

/-- The versions of a table that was only ever written by writers are apart from what the next
commit works with. -/
theorem Chronicle.apart {t : Table} {d : Disk} {authors : List Writer} {commits : List Commit}
    (h : Chronicle t d authors commits) (i : Nat) :
    t.Apart d (t.manifestPath :: Writer.scratch t (commits.length + 1) i) := by
  intro vs hvs v hv p hp
  obtain rfl := Except.ok.inj (hvs.symm.trans h.listed)
  obtain ⟨c, hc, rfl⟩ := List.mem_map.mp hv
  obtain rfl := Except.ok.inj ((t.filePath_entry _ _ _ _ _).symm.trans hp)
  have hlt := h.version_mem hc
  exact Writer.dataFile_notMem_scratch (by omega)

/-- What is listed by a table that was only ever written by writers is there. -/
theorem Chronicle.complete {t : Table} {d : Disk} {authors : List Writer} {commits : List Commit}
    (h : Chronicle t d authors commits) : t.Complete d := by
  intro vs hvs v hv
  obtain rfl := Except.ok.inj (hvs.symm.trans h.listed)
  obtain ⟨c, hc, rfl⟩ := List.mem_map.mp hv
  obtain ⟨codec, path, file, hpath, -, hcontent⟩ := h.onDisk c hc
  exact ⟨path, hpath, by rw [Disk.isThere, hcontent]; rfl⟩

namespace Writer

variable {w : Writer} {d d' : Disk} {u : Undertaking}

/-- A flush of which all operations are done. -/
theorem flush_done (hbuffer : w.buffer ≠ []) (hread : d.faults.headD .none = .none)
    (hu : w.undertaking d = .ok u)
    (hdone : (FileOp.performAll (u.ops w.table) (begun d)).1 = true) :
    (flush.run (w, d)).result = .ok true ∧ (flush.run (w, d)).state =
      ({ w with buffer := [] }, (FileOp.performAll (u.ops w.table) (begun d)).2) := by
  refine Ends.outcome (R := fun result x => result = .ok true ∧ x = _) ?_
  rw [ends_flush hbuffer hread hu]
  rcases hrun : FileOp.performAll (u.ops w.table) (begun d) with ⟨_ | _, d₁⟩
  · rw [hrun] at hdone
    cases hdone
  · exact ⟨rfl, rfl⟩

/-- A flush that is given up and cleaned up after. -/
theorem flush_given_up (hbuffer : w.buffer ≠ []) (hread : d.faults.headD .none = .none)
    (hu : w.undertaking d = .ok u)
    (hfailed : (FileOp.performAll (u.ops w.table) (begun d)).1 = false)
    (hcleaned : cleaned w.table u (FileOp.performAll (u.ops w.table) (begun d)).2 = (true, d')) :
    (flush.run (w, d)).result = .ok false ∧ (flush.run (w, d)).state = (w, d') := by
  refine Ends.outcome (R := fun result x => result = .ok false ∧ x = _) ?_
  rw [ends_flush hbuffer hread hu]
  rcases hrun : FileOp.performAll (u.ops w.table) (begun d) with ⟨_ | _, d₁⟩
  · rw [hrun] at hcleaned
    dsimp only
    rw [ends_abandon_of_cleaned hcleaned]
    exact ⟨rfl, rfl⟩
  · rw [hrun] at hfailed
    cases hfailed

/-- What a commit leaves of a table that can be read. -/
theorem readable_iff (hu : w.undertaking d = .ok u)
    (hapart : w.table.Apart d (w.table.manifestPath :: scratch w.table u.version u.serial))
    {old : List Value} (hold : w.table.rows d = .ok old) :
    (∀ e, Disk.SameBut [] d e → ∀ k, ∃ rows,
        w.table.rows (FileOp.performAll ((u.ops w.table).take k) e).2 = .ok rows) ↔
      ((∃ e, Disk.SameBut [] d e ∧ (FileOp.performAll (u.ops w.table) e).1 = true) →
        ∃ back, w.readBack = .ok back) := by
  obtain ⟨m, h⟩ := undertaking_iff.mp hu
  have hall : (u.ops w.table).take 4 = u.ops w.table :=
    List.take_of_length_le (by simp [u.ops_eq])
  constructor
  · rintro hreads ⟨e, he, hdone⟩
    have hcut := cut_off h hapart he 4
    rw [hall] at hcut
    dsimp only at hcut
    rw [if_pos ⟨Nat.le_refl 4, hdone⟩] at hcut
    obtain ⟨rows, hrows⟩ := hreads e he 4
    rw [hall, hcut.rows old hold] at hrows
    cases hback : w.readBack with
    | ok back => exact ⟨back, rfl⟩
    | error f =>
      rw [hback] at hrows
      cases hrows
  · intro hback e he k
    have hcut := cut_off h hapart he k
    by_cases hdone : 4 ≤ k ∧ (FileOp.performAll ((u.ops w.table).take k) e).1 = true
    · dsimp only at hcut
      rw [if_pos hdone] at hcut
      have htake : (u.ops w.table).take k = u.ops w.table :=
        List.take_of_length_le (by simpa [u.ops_eq] using hdone.1)
      obtain ⟨back, hback⟩ := hback ⟨e, he, by rw [← htake]; exact hdone.2⟩
      exact ⟨old ++ back, by rw [hcut.rows old hold, hback]; rfl⟩
    · dsimp only at hcut
      rw [if_neg hdone] at hcut
      exact ⟨old, hcut.rows.trans hold⟩

/-- A commit is seen as a whole or not at all, wherever it stops and whatever keeps it from going
on.  If it fails, and what it left can be removed, the table and the buffer are as they were, and a
later commit takes these rows and those written since.  Everybody who could read the table before
can read it then, wherever the commit stops, just if the rows are ones that can be read back; a
commit that cannot be completed does no harm in any case. -/
theorem commit_all_or_nothing (hbuffer : w.buffer ≠ []) (hu : w.undertaking d = .ok u)
    (hapart : ∀ i, w.table.Apart d (w.table.manifestPath :: scratch w.table u.version i)) :
    (∀ e, Disk.SameBut [] d e → ∀ k,
      let cut := FileOp.performAll ((u.ops w.table).take k) e
      if 4 ≤ k ∧ cut.1 = true then w.table.Gains w d cut.2 else w.table.LooksAlike d cut.2) ∧
    (d.faults.headD .none = .none →
      let e := flush.run (w, d)
      let tried := FileOp.performAll (u.ops w.table) (begun d)
      (tried.1 = true → e.result = .ok true ∧ e.state = ({ w with buffer := [] }, tried.2)) ∧
      (tried.1 = false → ∀ d', cleaned w.table u tried.2 = (true, d') →
        e.result = .ok false ∧ e.state = (w, d') ∧ w.table.LooksAlike d d' ∧
        d'.content? (u.draft w.table) = none ∧ d'.content? (u.final w.table) = none ∧
        ∀ more later, Disk.SameBut [] d' later → later.faults.headD .none = .none →
          let grown := { w with buffer := w.buffer ++ more }
          let e' := flush.run (grown, later)
          ∀ u', grown.undertaking later = .ok u' →
            (FileOp.performAll (u'.ops w.table) (begun later)).1 = true →
            e'.result = .ok true ∧ e'.state.1 = { w with buffer := [] } ∧
              w.table.Gains grown d e'.state.2)) ∧
    (∀ old, w.table.rows d = .ok old →
      ((∀ e, Disk.SameBut [] d e → ∀ k, ∃ rows,
          w.table.rows (FileOp.performAll ((u.ops w.table).take k) e).2 = .ok rows) ↔
        ((∃ e, Disk.SameBut [] d e ∧ (FileOp.performAll (u.ops w.table) e).1 = true) →
          ∃ back, w.readBack = .ok back))) := by
  obtain ⟨m, h⟩ := undertaking_iff.mp hu
  have hbegun : Disk.SameBut [] d (begun d) := fun _ _ => rfl
  refine ⟨fun e he k => cut_off h (hapart _) he k, fun hread => ⟨fun hdone => ?_,
    fun hfailed d' hcleaned => ?_⟩, fun old hold => readable_iff hu (hapart _) hold⟩
  · exact flush_done hbuffer hread hu hdone
  · obtain ⟨hresult, hstate⟩ := flush_given_up hbuffer hread hu hfailed hcleaned
    obtain ⟨hcleansed, hdraft, hfinal⟩ := cleaned_sameBut w.table hcleaned
    have hfour : (u.ops w.table).take 4 = u.ops w.table :=
      List.take_of_length_le (by simp [u.ops_eq])
    have htried := unfinished_sameBut w.table u (begun d) (k := 4)
    rw [hfour] at htried
    have hsame := (hbegun.mono (List.nil_subset _)).trans
      ((htried (by simp [hfailed])).trans hcleansed)
    have hlooks : w.table.LooksAlike d d' :=
      Table.looksAlike_of_sameBut hsame manifestPath_notMem_scratch
        fun vs hvs v hv p hp q hq => hapart _ vs hvs v hv p hp q (List.mem_cons_of_mem _ hq)
    refine ⟨hresult, hstate, hlooks, hdraft, hfinal, fun more later hlater hread' u' hu' hdone' => ?_⟩
    have hlooks' := hlooks.trans (Table.looksAlike_of_sameBut_nil hlater)
    have hmore : w.buffer ++ more ≠ [] := by simp [hbuffer]
    obtain ⟨hresult', hstate'⟩ := flush_done hmore hread' hu' hdone'
    obtain ⟨m', h'⟩ := undertaking_iff.mp hu'
    have hversion : u'.version = u.version := by
      have hnext := (Table.nextVersion_congr hlooks'.manifest).symm.trans h'.nextVersion
      exact Except.ok.inj (hnext.symm.trans h.nextVersion)
    have hgains := Table.gains_of_extends
      (finished_extends h' (e := begun later) (fun _ _ => rfl) hdone') ⟨rfl, rfl, rfl⟩
      (hlooks'.apart (hversion ▸ hapart u'.serial))
    rw [hstate']
    exact ⟨hresult', rfl, hlooks'.gains hgains⟩

end Writer

/-! ## Two commits of one table -/

namespace Fleet

/-- One order is committed.  With the next one, the manifest is going to be refused by the disk
after the data file has taken its place. -/
def refusedOrder : List Event :=
  [.opened "a" (.str "null") numberedOrder, .write "a" (Value.ofFields [("id", .int 1)]),
    .flush "a", .write "a" (Value.ofFields [("id", .int 2)]),
    .disturbed [.none, .none, .none, .refused] .epoch]

theorem refused_order_commits_later : ∃ w u,
    let d := (after orders refusedOrder .start).disk
    let e := Writer.flush.run (w, d)
    (after orders refusedOrder .start).writer? "a" = some w ∧ w.undertaking d = .ok u ∧
      e.result = .ok false ∧ orders.rows e.state.2 = orders.rows d ∧ orders.Complete e.state.2 ∧
      e.state.2.content? (u.final orders) = none ∧
      orders.Gains { w with buffer := w.buffer ++ [Value.ofFields [("id", .int 3)]] } d
        (Writer.flush.run ({ w with buffer := w.buffer ++ [Value.ofFields [("id", .int 3)]] },
          { e.state.2 with faults := [] })).state.2 := by
  have hrun : ((after orders refusedOrder .start).writer? "a").any (fun w =>
      let d := (after orders refusedOrder .start).disk
      let grown := { w with buffer := w.buffer ++ [Value.ofFields [("id", .int 3)]] }
      decide (w.buffer.length = 1 ∧ d.faults.headD .none = .none) &&
      Except.passes (fun u =>
        let tried := FileOp.performAll (u.ops orders) (Writer.begun d)
        let cleaned := Writer.cleaned orders u tried.2
        !tried.1 && cleaned.1 &&
        Except.passes (fun u' =>
          (FileOp.performAll (u'.ops orders) (Writer.begun { cleaned.2 with faults := [] })).1)
          (grown.undertaking { cleaned.2 with faults := [] })) (w.undertaking d)) = true := by
    decide +kernel
  obtain ⟨w, hw, hrun⟩ := (Option.any_eq_true _ _).mp hrun
  obtain ⟨hready, hrun⟩ := Bool.and_eq_true_iff.mp hrun
  obtain ⟨hbuffer, hread⟩ := of_decide_eq_true hready
  obtain ⟨u, hu, hrun⟩ := Except.of_passes hrun
  simp only [Bool.and_eq_true, Bool.not_eq_true'] at hrun
  obtain ⟨⟨htried, hcleaned⟩, hlater⟩ := hrun
  obtain ⟨u', hu', hdone'⟩ := Except.of_passes hlater
  obtain ⟨hshares, commits, h⟩ := after_chronicle orders_straight (d := .empty) rfl refusedOrder
  replace h : Chronicle orders (after orders refusedOrder .start).disk _ commits := h
  obtain ⟨table, codec, schema, fingerprint, buffer, closed⟩ := w
  obtain rfl : table = orders := hshares.writer hw
  have hversion : u.version = commits.length + 1 := by
    obtain ⟨m, hm⟩ := Writer.undertaking_iff.mp hu
    exact Except.ok.inj (hm.nextVersion.symm.trans h.next)
  have hnonempty : buffer ≠ [] := by
    rintro rfl
    cases hbuffer
  have hapart := h.apart
  have hcomplete := h.complete
  generalize (after orders refusedOrder .start).disk = d at hu hread htried hcleaned hu' hdone' hapart hcomplete ⊢
  obtain ⟨-, hflush, -⟩ := Writer.commit_all_or_nothing hnonempty hu fun i => hversion ▸ hapart i
  obtain ⟨hresult, hstate, hlooks, -, hfinal, hagain⟩ :=
    (hflush hread).2 htried _ (Prod.ext hcleaned rfl)
  refine ⟨_, u, hw, hu, hresult, ?_, ?_, ?_, ?_⟩
  · rw [hstate]
    exact hlooks.rows
  · rw [hstate]
    exact hlooks.complete hcomplete
  · rw [hstate]
    exact hfinal
  · rw [hstate]
    exact (hagain _ { (Writer.cleaned orders u _).2 with faults := [] } (fun _ _ => rfl) rfl u' hu'
      hdone').2.2

/-- A moment that no date stands for is written, and then all operations of its commit are done: the
table could be read before, and cannot be read any more. -/
theorem far_moment_unreadable_once_committed : ∃ s w u, Avro.Schema.parse momentNode = .ok s ∧
    let f := after orders [.opened "a" (.str "null") s, .write "a" farMoment] .start
    f.writer? "a" = some w ∧ w.buffer ≠ [] ∧ w.undertaking f.disk = .ok u ∧
      orders.rows f.disk = .ok [] ∧
      ¬∃ rows, orders.rows (FileOp.performAll ((u.ops orders).take 4) f.disk).2 = .ok rows := by
  have hrun : Except.passes (fun s =>
      let f := after orders [.opened "a" (.str "null") s, .write "a" farMoment] .start
      (f.writer? "a").any (fun w => !w.buffer.isEmpty &&
        Except.passes (fun old => old.isEmpty) (orders.rows f.disk) &&
        Except.passes (fun u => !Except.passes (fun _ => true)
          (orders.rows (FileOp.performAll ((u.ops orders).take 4) f.disk).2))
          (w.undertaking f.disk)))
      (Avro.Schema.parse momentNode) = true := by
    decide +kernel
  obtain ⟨s, hs, hrun⟩ := Except.of_passes hrun
  obtain ⟨w, hw, hrun⟩ := (Option.any_eq_true _ _).mp hrun
  simp only [Bool.and_eq_true, Bool.not_eq_true'] at hrun
  obtain ⟨⟨hbuffer, hold⟩, hrun⟩ := hrun
  obtain ⟨old, hold, hempty⟩ := Except.of_passes hold
  obtain rfl := List.isEmpty_iff.mp hempty
  obtain ⟨u, hu, hunread⟩ := Except.of_passes hrun
  refine ⟨s, w, u, hs, hw, by simpa using hbuffer, hu, hold, fun ⟨rows, hrows⟩ => ?_⟩
  rw [hrows] at hunread
  cases hunread

end Fleet
end Store
end StreamTable
