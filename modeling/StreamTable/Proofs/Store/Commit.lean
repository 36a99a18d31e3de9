/-
Commits of a table.  A flush that is done adds one version to the manifest, with a data file of the
buffered rows, and changes nothing else but temporary files.  A flush that is not done, or fails,
leaves the manifest and the files of all versions so far as they were, and the buffer as it was.
-/
import StreamTable.Proofs.Action.Ends
import StreamTable.Proofs.Action.Preserve
import StreamTable.Proofs.Store.Disk
import StreamTable.Proofs.Store.Manifest
import StreamTable.Store.Writer

namespace StreamTable
namespace Store

open StreamTable.Action

/-! ## The places of a table's files -/

namespace Table

variable (t : Table)

theorem manifestPath_normal : t.manifestPath.normal = t.folder.normal.child Manifest.fileName :=
  Path.normal_child (by decide)

theorem draftPath_normal : t.draftPath.normal = t.folder.normal.child Manifest.draftName :=
  Path.normal_child (by decide)

theorem dataFolder_normal : t.dataFolder.normal = t.folder.normal.child "data" :=
  Path.normal_child (by decide)

/-- No step up is on the way to a table, so that its path leads nowhere twice.  The folders that are
made for a table whose path has steps up can stand in the place of its manifest. -/
def IsStraight (t : Table) : Prop := ".." ∉ t.folder.names

instance : Decidable t.IsStraight := inferInstanceAs (Decidable (".." ∉ t.folder.names))

section Straight

variable {t : Table} {p : Path} (ht : t.IsStraight) (hp : p ∈ t.dataFolder.way)
include ht hp

theorem IsStraight.way_normal : p.normal = p := by
  refine Path.normal_of_notMem fun h => ?_
  have hmem := (Path.names_prefix_of_mem_way hp).subset h
  simp only [dataFolder, Path.child, List.mem_append, List.mem_singleton] at hmem
  obtain hmem | hmem := hmem
  · exact ht hmem
  · exact absurd hmem (by decide)

/-- No folder of a table is in the place of a file beside its data folder. -/
theorem IsStraight.child_ne_way {name : String} (hname : name ≠ "data") :
    t.folder.normal.child name ≠ p.normal := by
  rw [ht.way_normal hp, Path.normal_of_notMem ht]
  rintro rfl
  have hprefix := Path.names_prefix_of_mem_way hp
  have hnames := hprefix.eq_of_length (by simp [dataFolder, Path.child])
  exact hname (List.singleton_inj.mp (List.append_cancel_left hnames))

/-- No folder of a table is in its data folder. -/
theorem IsStraight.child_child_ne_way {m n : String} :
    (t.folder.normal.child m).child n ≠ p.normal := by
  rw [ht.way_normal hp, Path.normal_of_notMem ht]
  rintro rfl
  have hlength := (Path.names_prefix_of_mem_way hp).length_le
  simp only [dataFolder, Path.child, List.length_append, List.length_singleton] at hlength
  omega

end Straight

/-- A name in the data folder leads to another place than a name beside it. -/
theorem dataFolder_child_ne {m n : String} :
    t.dataFolder.normal.child m ≠ t.folder.normal.child n := by
  intro h
  have hfolder := congrArg (fun p => p.names.length) (Path.child_inj h).1
  simp [dataFolder_normal, Path.child] at hfolder

theorem draftPath_ne_manifestPath : t.draftPath.normal ≠ t.manifestPath.normal := by
  rw [draftPath_normal, manifestPath_normal]
  intro h
  exact absurd (Path.child_inj h).2 (by decide)

end Table

namespace Writer

variable {t : Table} {n m : Int} {i j : Nat}

theorem dataName_head (n : Int) (i : Nat) :
    ∃ rest, (Manifest.dataName n i).toList = 'v' :: rest := by
  rw [Manifest.dataName_toList, Manifest.versionText_toList]
  exact ⟨_, rfl⟩

theorem dataDraft_normal (t : Table) (n : Int) (i : Nat) :
    (dataPaths t n i).1.normal =
      t.dataFolder.normal.child ("." ++ Manifest.dataName n i ++ ".tmp") := by
  refine Path.normal_child fun h => ?_
  obtain ⟨rest, hrest⟩ := dataName_head n i
  have hlist := congrArg String.toList h
  rw [String.toList_append, String.toList_append, hrest] at hlist
  simp at hlist

theorem dataFile_normal (t : Table) (n : Int) (i : Nat) :
    (dataPaths t n i).2.normal = t.dataFolder.normal.child (Manifest.dataName n i) := by
  refine Path.normal_child fun h => ?_
  obtain ⟨rest, hrest⟩ := dataName_head n i
  rw [h] at hrest
  simp at hrest

theorem dataFile_ne_dataDraft : (dataPaths t n i).2.normal ≠ (dataPaths t m j).1.normal := by
  rw [dataFile_normal, dataDraft_normal]
  intro h
  obtain ⟨rest, hrest⟩ := dataName_head n i
  have hlist := congrArg String.toList (Path.child_inj h).2
  rw [hrest, String.toList_append, String.toList_append] at hlist
  simp at hlist

theorem dataFile_ne_manifestPath : (dataPaths t n i).2.normal ≠ t.manifestPath.normal := by
  rw [dataFile_normal, t.manifestPath_normal]
  exact t.dataFolder_child_ne

theorem dataFile_ne_draftPath : (dataPaths t n i).2.normal ≠ t.draftPath.normal := by
  rw [dataFile_normal, t.draftPath_normal]
  exact t.dataFolder_child_ne

/-- Data files of different versions stand at different places. -/
theorem dataFile_inj (h : (dataPaths t n i).2.normal = (dataPaths t m j).2.normal) : n = m := by
  rw [dataFile_normal, dataFile_normal] at h
  exact Manifest.dataName_inj (Path.child_inj h).2

/-- The files beside the manifest that an attempt to commit a version may change. -/
def scratch (t : Table) (n : Int) (i : Nat) : List Path :=
  [(dataPaths t n i).1, (dataPaths t n i).2, t.draftPath]

theorem manifestPath_notMem_scratch : ∀ p ∈ scratch t n i, t.manifestPath.normal ≠ p.normal := by
  intro p hp
  simp only [scratch, List.mem_cons, List.not_mem_nil, or_false] at hp
  obtain rfl | rfl | rfl := hp
  · rw [dataDraft_normal, t.manifestPath_normal]
    exact t.dataFolder_child_ne.symm
  · exact dataFile_ne_manifestPath.symm
  · exact t.draftPath_ne_manifestPath.symm

theorem dataFile_notMem_scratch (h : m ≠ n) :
    ∀ p ∈ t.manifestPath :: scratch t n i, (dataPaths t m j).2.normal ≠ p.normal := by
  intro p hp
  simp only [scratch, List.mem_cons, List.not_mem_nil, or_false] at hp
  obtain rfl | rfl | rfl | rfl := hp
  · exact dataFile_ne_manifestPath
  · exact dataFile_ne_dataDraft
  · exact fun hp => h (dataFile_inj hp)
  · exact dataFile_ne_draftPath

end Writer

/-! ## Versions -/

namespace Table

/-- The number of the version that comes next. -/
def nextVersion (t : Table) (d : Disk) : Except Failure Int := do
  let m ← t.manifest d
  (Manifest.nextVersion m).mapError Failure.data

/-- What the manifest says of the versions, oldest first. -/
def versions (t : Table) (d : Disk) : Except Failure (List Value) := do
  let m ← t.manifest d
  (Manifest.versions m).mapError Failure.data

/-- What the manifest says is the number of the last version. -/
def currentVersion (t : Table) (d : Disk) : Except Failure Value := do
  let m ← t.manifest d
  (Manifest.currentVersion m).mapError Failure.data

section Congruence

variable {t : Table} {d d' : Disk} (h : d'.content? t.manifestPath = d.content? t.manifestPath)
include h

theorem manifest_congr : t.manifest d' = t.manifest d := by
  rw [manifest, manifest, h]

theorem nextVersion_congr : t.nextVersion d' = t.nextVersion d := by
  rw [nextVersion, nextVersion, manifest_congr h]

theorem versions_congr : t.versions d' = t.versions d := by
  rw [versions, versions, manifest_congr h]

theorem currentVersion_congr : t.currentVersion d' = t.currentVersion d := by
  rw [currentVersion, currentVersion, manifest_congr h]

end Congruence

theorem nextVersion_of_current {t : Table} {d : Disk} {n : Int}
    (h : t.currentVersion d = .ok (.int n)) : t.nextVersion d = .ok (n + 1) := by
  rw [currentVersion] at h
  rw [nextVersion]
  cases hm : t.manifest d with
  | error f =>
    rw [hm] at h
    cases h
  | ok m =>
    rw [hm] at h
    exact congrArg (Except.mapError Failure.data)
      (Manifest.nextVersion_of_current (Except.ok_of_mapError h))

end Table

/-- A version that was committed. -/
structure Commit where
  version : Int
  serial : Nat
  schema : Avro.Schema
  rows : List Value
  fingerprint : String
  date : DateTime

namespace Commit

def file (c : Commit) : String := Manifest.dataName c.version c.serial

/-- What the manifest says of it. -/
def entry (c : Commit) : Value :=
  Manifest.entry c.version c.file c.rows.length c.fingerprint c.date

/-- A commit of the rows that a writer holds. -/
structure IsOf (c : Commit) (w : Writer) : Prop where
  schema : c.schema = w.schema
  rows : c.rows = w.buffer
  fingerprint : c.fingerprint = w.fingerprint

/-- The data file of the committed rows stands where the manifest's entry leads to. -/
def OnDisk (c : Commit) (t : Table) (codec : Value) (d : Disk) : Prop :=
  ∃ path file, t.filePath c.entry = .ok path ∧
    DataFile.ofRows c.schema codec c.rows = .ok file ∧ d.content? path = some (.rows file)

/-- A disk comes from another one by this commit. -/
structure Extends (c : Commit) (t : Table) (codec : Value) (d d' : Disk) : Prop where
  next : t.nextVersion d = .ok c.version
  current : t.currentVersion d' = .ok (.int c.version)
  listed : ∃ vs, t.versions d = .ok vs ∧ t.versions d' = .ok (vs ++ [c.entry])
  onDisk : c.OnDisk t codec d'
  frame : Disk.SameBut (t.manifestPath :: Writer.scratch t c.version c.serial) d d'

theorem Extends.next' {c : Commit} {t : Table} {codec : Value} {d d' : Disk}
    (h : c.Extends t codec d d') : t.nextVersion d' = .ok (c.version + 1) :=
  Table.nextVersion_of_current h.current

end Commit

/-- A disk comes from another one by an attempt to commit that was in vain: whatever it changed
belongs to the version that comes next. -/
def Attempted (t : Table) (d d' : Disk) : Prop :=
  ∃ ps, Disk.SameBut ps d d' ∧
    ∀ p ∈ ps, ∃ n i, t.nextVersion d = .ok n ∧ p ∈ Writer.scratch t n i

/-! ## What leaves the versions alone -/

/-- A disk comes from another one by changes that no version of a table is touched by: its manifest
is as it was, and so are the data files of all versions before the next. -/
structure Spares (t : Table) (d d' : Disk) : Prop where
  manifest : d'.content? t.manifestPath = d.content? t.manifestPath
  dataFile : ∀ n i, (∀ next, t.nextVersion d = .ok next → n < next) →
    d'.content? (Writer.dataPaths t n i).2 = d.content? (Writer.dataPaths t n i).2

theorem Spares.refl (t : Table) (d : Disk) : Spares t d d := ⟨rfl, fun _ _ _ => rfl⟩

theorem Attempted.spares {t : Table} {d d' : Disk} (h : Attempted t d d') : Spares t d d' := by
  obtain ⟨ps, hs, hps⟩ := h
  refine ⟨hs _ fun p hp => ?_, fun n i hn => hs _ fun p hp => ?_⟩
  · obtain ⟨m, j, -, hmem⟩ := hps p hp
    exact Writer.manifestPath_notMem_scratch p hmem
  · obtain ⟨m, j, hm, hmem⟩ := hps p hp
    have hlt := hn m hm
    exact Writer.dataFile_notMem_scratch (by omega) p (List.mem_cons_of_mem _ hmem)

/-- Making the folders of a table on a straight path spares its versions. -/
theorem makeFolders_spares {t : Table} (ht : t.IsStraight) {d d' : Disk}
    (h : t.makeFolders d = .ok d') : Spares t d d' := by
  have hsame := Disk.makeAll_sameBut _ h
  refine ⟨hsame _ fun p hp => ?_, fun n i _ => hsame _ fun p hp => ?_⟩
  · rw [t.manifestPath_normal]
    exact ht.child_ne_way hp (by decide)
  · rw [Writer.dataFile_normal, t.dataFolder_normal]
    exact ht.child_child_ne_way hp

namespace Commit

variable {c : Commit} {t : Table} {codec : Value} {d d' : Disk}

/-- The data file stays as long as nothing else comes into its place. -/
theorem OnDisk.congr (h : c.OnDisk t codec d)
    (hfile : d'.content? (Writer.dataPaths t c.version c.serial).2 =
      d.content? (Writer.dataPaths t c.version c.serial).2) : c.OnDisk t codec d' := by
  obtain ⟨path, file, hpath, hrows, hcontent⟩ := h
  obtain rfl : (Writer.dataPaths t c.version c.serial).2 = path :=
    Except.ok.inj ((t.filePath_entry _ _ _ _ _).symm.trans hpath)
  exact ⟨_, file, hpath, hrows, hfile.trans hcontent⟩

/-- A commit leaves the data files of the versions before it alone. -/
theorem Extends.dataFile (h : c.Extends t codec d d') {n : Int} (hn : n < c.version) (i : Nat) :
    d'.content? (Writer.dataPaths t n i).2 = d.content? (Writer.dataPaths t n i).2 :=
  h.frame _ (Writer.dataFile_notMem_scratch (by omega))

end Commit

/-! ## What the calls of a writer do -/

namespace Writer

variable {w : Writer} {d : Disk}

/-- A writer that is opened is open on its table and holds no rows, and the folders of the table are
there. -/
theorem create_ends (t : Table) (codec : Value) (schema : Avro.Schema) (d : Disk) :
    (create t codec schema).Ends d
      (fun w d' => w.table = t ∧ w.codec = codec ∧ w.buffer = [] ∧ w.closed = false ∧
        t.makeFolders d = .ok d')
      (fun _ d' => d' = d) := by
  simp only [create, ends_bind]
  rw [ends_lift]
  refine ⟨fun settled _ => ?_, fun f _ => rfl⟩
  rw [ends_lift]
  refine ⟨fun fingerprint _ => ?_, fun f _ => rfl⟩
  rw [ends_get, ends_lift]
  exact ⟨fun d' hd' => ⟨rfl, rfl, rfl, rfl, Except.ok_of_mapError hd'⟩, fun f _ => rfl⟩

/-- A row that is taken is the last in the buffer, and one that is not changes nothing. -/
theorem write_ends (row : Value) (w : Writer) (d : Disk) :
    (write row).Ends (w, d) (fun _ x => x = ({ w with buffer := w.buffer ++ [row] }, d))
      (fun _ x => x = (w, d)) := by
  simp only [write, ends_bind, ends_get]
  rw [ends_ite]
  refine ⟨fun _ => rfl, fun _ => ?_⟩
  rw [ends_bind, ends_lift]
  refine ⟨fun fits _ => ?_, fun f _ => rfl⟩
  cases fits with
  | true => exact rfl
  | false => exact rfl

@[simp]
theorem ends_perform (ops : List FileOp) {Q : Bool → Writer × Disk → Prop}
    {E : Failure → Writer × Disk → Prop} :
    (perform ops).Ends (w, d) Q E ↔
      Q (FileOp.performAll ops d).1 (w, (FileOp.performAll ops d).2) := Iff.rfl

@[simp]
theorem ends_freshSerial {Q : Nat → Writer × Disk → Prop} {E : Failure → Writer × Disk → Prop} :
    freshSerial.Ends (w, d) Q E ↔ Q d.serial (w, { d with serial := d.serial + 1 }) := Iff.rfl

/-- Reading the manifest changes nothing. -/
theorem readManifest_ends (w : Writer) (d : Disk) :
    readManifest.Ends (w, d)
      (fun m x => w.table.manifest d = .ok m ∧ x.1 = w ∧ Disk.SameBut [] d x.2)
      (fun _ x => x.1 = w ∧ Disk.SameBut [] d x.2) := by
  have hrest : Disk.SameBut [] d { d with faults := d.faults.tail } := fun _ _ => rfl
  unfold Ends
  simp only [readManifest, Action.run]
  cases d.faults.headD .none with
  | none =>
    dsimp only
    cases hm : w.table.manifest d with
    | ok m => exact ⟨rfl, rfl, hrest⟩
    | error f => exact ⟨rfl, hrest⟩
  | refused => exact ⟨rfl, hrest⟩
  | torn => exact ⟨rfl, hrest⟩

theorem discard_ends (p : Path) (w : Writer) (d : Disk) :
    (discard p).Ends (w, d)
      (fun _ x => x.1 = w ∧ Disk.SameBut [p] d x.2)
      (fun _ x => x.1 = w ∧ Disk.SameBut [p] d x.2) := by
  simp only [discard, ends_bind, ends_get]
  rw [ends_ite]
  refine ⟨fun _ => ?_, fun _ => ⟨rfl, Disk.SameBut.refl _ d⟩⟩
  rw [ends_bind, ends_perform]
  have hsame := FileOp.performAll_sameBut [.delete p] d
  cases (FileOp.performAll [.delete p] d).1 with
  | true => exact ⟨rfl, hsame⟩
  | false => exact ⟨rfl, hsame⟩

theorem abandon_ends (n : Int) (i : Nat) (w : Writer) (d : Disk) :
    (abandon n i).Ends (w, d)
      (fun done x => done = false ∧ x.1 = w ∧ Disk.SameBut (scratch w.table n i) d x.2)
      (fun _ x => x.1 = w ∧ Disk.SameBut (scratch w.table n i) d x.2) := by
  simp only [abandon, ends_bind, ends_get, ends_log]
  refine (discard_ends _ w d).mono (fun _ x hx => ?_) fun _ x hx => ?_
  · obtain ⟨w₁, d₁⟩ := x
    obtain ⟨rfl, h₁⟩ := hx
    have hdraft : Disk.SameBut (scratch w₁.table n i) d d₁ := h₁.mono (by simp [scratch])
    refine (discard_ends _ w₁ d₁).mono (fun _ x hx => ?_) fun _ x hx => ?_
    · exact ⟨rfl, hx.1, hdraft.trans (hx.2.mono (by simp [scratch]))⟩
    · exact ⟨hx.1, hdraft.trans (hx.2.mono (by simp [scratch]))⟩
  · exact ⟨hx.1, hx.2.mono (by simp [scratch])⟩

theorem writeData_ends (n : Int) (i : Nat) (w : Writer) (d : Disk) :
    (writeData n i).Ends (w, d)
      (fun done x => x.1 = w ∧ Disk.SameBut (scratch w.table n i) d x.2 ∧
        (done = true → ∃ file, DataFile.ofRows w.schema w.codec w.buffer = .ok file ∧
          x.2.content? (dataPaths w.table n i).2 = some (.rows file)))
      (fun _ x => x.1 = w ∧ Disk.SameBut (scratch w.table n i) d x.2) := by
  have hops (c : Content) : Disk.SameBut (scratch w.table n i) d
      (FileOp.performAll (dataOps w.table n i c) d).2 :=
    (FileOp.performAll_sameBut _ d).mono (by simp [dataOps, FileOp.paths, scratch])
  simp only [writeData, ends_bind, ends_get]
  cases hf : DataFile.ofRows w.schema w.codec w.buffer with
  | ok file =>
    rw [ends_perform]
    refine ⟨rfl, hops _, fun hdone => ⟨file, rfl, ?_⟩⟩
    have hdraft : (dataPaths w.table n i).1.normal.names ≠ [] := by
      rw [dataDraft_normal]
      exact Path.child_names_ne_nil _ _
    have hfinal : (dataPaths w.table n i).2.normal.names ≠ [] := by
      rw [dataFile_normal]
      exact Path.child_names_ne_nil _ _
    exact FileOp.content?_of_replace hdraft hfinal hdone
  | error f =>
    have htext : Disk.SameBut (scratch w.table n i) d
        (FileOp.performAll ((dataOps w.table n i (.text "")).take 1) d).2 :=
      (FileOp.performAll_sameBut _ d).mono (by simp [dataOps, FileOp.paths, scratch])
    rw [ends_bind, ends_perform]
    cases (FileOp.performAll ((dataOps w.table n i (.text "")).take 1) d).1 with
    | true => exact ⟨rfl, htext⟩
    | false => exact ⟨rfl, htext, fun h => by cases h⟩

/-- The manifest that takes its place is the one that was written. -/
theorem manifestOps_done {t : Table} {m : Value}
    (h : (FileOp.performAll (manifestOps t m) d).1 = true) :
    t.manifest (FileOp.performAll (manifestOps t m) d).2 = .ok m := by
  have hcontent : (FileOp.performAll (manifestOps t m) d).2.content? t.manifestPath =
      some (.document m) := by
    refine FileOp.content?_of_replace ?_ ?_ h
    · rw [t.draftPath_normal]
      exact Path.child_names_ne_nil _ _
    · rw [t.manifestPath_normal]
      exact Path.child_names_ne_nil _ _
  rw [Table.manifest, hcontent]
  rfl

/-- A flush without rows does nothing. -/
theorem flush_ends_of_empty {Q : Bool → Writer × Disk → Prop} {E : Failure → Writer × Disk → Prop}
    (h : w.buffer = []) : flush.Ends (w, d) Q E ↔ Q true (w, d) := by
  simp only [flush, ends_bind, ends_get]
  rw [if_pos (by rw [h]; rfl), ends_pure]

/-- Once both halves of a commit are done the table has one more version. -/
theorem extends_of_done {d₂ : Disk} {m m' : Value} {n : Int} {i : Nat} {now : DateTime}
    (hm : w.table.manifest d = .ok m) (hnext : w.table.nextVersion d = .ok n)
    (hd₂ : Disk.SameBut (scratch w.table n i) d d₂)
    (hfile : ∃ file, DataFile.ofRows w.schema w.codec w.buffer = .ok file ∧
      d₂.content? (dataPaths w.table n i).2 = some (.rows file))
    (hm' : w.extend m n i now = .ok m')
    (hdone : (FileOp.performAll (manifestOps w.table m') d₂).1 = true) :
    Commit.Extends ⟨n, i, w.schema, w.buffer, w.fingerprint, now⟩ w.table w.codec d
      (FileOp.performAll (manifestOps w.table m') d₂).2 := by
  obtain ⟨file, hrows, hcontent⟩ := hfile
  obtain ⟨hcurrent, vs, hvs, hvs'⟩ := Manifest.withVersion_lists hm'
  have hmanifest := manifestOps_done hdone
  have hd₃ : Disk.SameBut [w.table.draftPath, w.table.manifestPath] d₂ _ :=
    (FileOp.performAll_sameBut (manifestOps w.table m') d₂).mono
      (by simp [manifestOps, FileOp.paths])
  refine ⟨hnext, ?_, ⟨vs, ?_, ?_⟩, ⟨_, file, w.table.filePath_entry _ _ _ _ _, hrows, ?_⟩, ?_⟩
  · rw [Table.currentVersion, hmanifest]
    exact congrArg (Except.mapError Failure.data) hcurrent
  · rw [Table.versions, hm]
    exact congrArg (Except.mapError Failure.data) hvs
  · rw [Table.versions, hmanifest]
    exact congrArg (Except.mapError Failure.data) hvs'
  · refine (hd₃ _ fun p hp => ?_).trans hcontent
    simp only [List.mem_cons, List.not_mem_nil, or_false] at hp
    obtain rfl | rfl := hp
    · exact dataFile_ne_draftPath
    · exact dataFile_ne_manifestPath
  · exact (hd₂.mono (List.subset_cons_self _ _)).trans (hd₃.mono (by simp [scratch]))

/-- A flush of rows commits them all as the next version, or leaves them in the buffer and the
table as it was. -/
theorem flush_ends (h : w.buffer ≠ []) :
    flush.Ends (w, d)
      (fun done x => if done = true then x.1 = { w with buffer := [] } ∧
          ∃ c : Commit, c.IsOf w ∧ c.Extends w.table w.codec d x.2
        else x.1 = w ∧ Attempted w.table d x.2)
      (fun _ x => x.1 = w ∧ Attempted w.table d x.2) := by
  simp only [flush, ends_bind, ends_get]
  rw [if_neg (by simpa using h), ends_bind]
  refine (readManifest_ends w d).mono (fun m x hx => ?_) fun _ x hx => ?_
  · obtain ⟨w₁, d₁⟩ := x
    obtain ⟨hm, rfl, hd₁⟩ := hx
    rw [ends_bind, ends_lift]
    refine ⟨fun n hn => ?_, fun f _ => ⟨rfl, [], hd₁, by simp⟩⟩
    have hnext : w₁.table.nextVersion d = .ok n := by
      rw [Table.nextVersion, hm]
      exact hn
    have hattempted {i : Nat} {d' : Disk} (hd' : Disk.SameBut (scratch w₁.table n i) d d') :
        Attempted w₁.table d d' := ⟨_, hd', fun p hp => ⟨n, i, hnext, hp⟩⟩
    have hscratch (ps : List Path) : Disk.SameBut ps d { d₁ with serial := d₁.serial + 1 } :=
      fun q hq => hd₁ q (by simp)
    rw [ends_bind, ends_freshSerial, ends_bind]
    generalize d₁.serial = i at hscratch ⊢
    refine (writeData_ends n i w₁ _).mono (fun written x hx => ?_) fun _ x hx => ?_
    · obtain ⟨w₂, d₂⟩ := x
      obtain ⟨rfl, hd₂, hfile⟩ := hx
      replace hd₂ := (hscratch _).trans hd₂
      cases written with
      | false =>
        rw [Bool.not_false, if_pos rfl]
        refine (abandon_ends n i w₂ d₂).mono (fun done x hx => ?_) fun _ x hx => ?_
        · obtain ⟨rfl, hx, hd₃⟩ := hx
          rw [if_neg Bool.false_ne_true]
          exact ⟨hx, hattempted (hd₂.trans hd₃)⟩
        · exact ⟨hx.1, hattempted (hd₂.trans hx.2)⟩
      | true =>
        rw [Bool.not_true, if_neg Bool.false_ne_true, ends_bind, ends_lift]
        refine ⟨fun m' hm' => ?_, fun f _ => ⟨rfl, hattempted hd₂⟩⟩
        rw [ends_bind, ends_perform]
        cases hdone : (FileOp.performAll (manifestOps w₂.table m') d₂).1 with
        | false =>
          have hd₃ := hd₂.trans ((FileOp.replace_failed hdone).mono (by simp [scratch]))
          rw [Bool.not_false, if_pos rfl]
          refine (abandon_ends n i w₂ _).mono (fun done x hx => ?_) fun _ x hx => ?_
          · obtain ⟨rfl, hx, hd₄⟩ := hx
            rw [if_neg Bool.false_ne_true]
            exact ⟨hx, hattempted (hd₃.trans hd₄)⟩
          · exact ⟨hx.1, hattempted (hd₃.trans hx.2)⟩
        | true =>
          rw [Bool.not_true, if_neg Bool.false_ne_true, ends_bind, ends_modify, ends_pure]
          rw [if_pos rfl]
          exact ⟨rfl, _, ⟨rfl, rfl, rfl⟩,
            extends_of_done hm hnext hd₂ (hfile rfl) (Except.ok_of_mapError hm') hdone⟩
    · exact ⟨hx.1, hattempted ((hscratch _).trans hx.2)⟩
  · exact ⟨hx.1, [], hx.2, by simp⟩

/-- A flush changes nothing of a writer but its buffer. -/
theorem flush_writer : flush.Preserves fun x : Writer × Disk => { x.1 with buffer := [] } := by
  rintro ⟨w, d⟩
  refine Ends.state (R := fun x : Writer × Disk =>
    { x.1 with buffer := [] } = { w with buffer := [] }) ?_
  by_cases hempty : w.buffer = []
  · exact (flush_ends_of_empty hempty).mpr rfl
  · refine (flush_ends hempty).mono (fun done x hx => ?_) fun _ x hx => ?_
    · cases done with
      | true => rw [hx.1]
      | false => rw [hx.1]
    · rw [hx.1]

end Writer
end Store
end StreamTable
