/-
What a flush makes of the rows that a writer has taken.  A row is checked when it is taken and
encoded when it is committed, and a commit puts up with a disk that fails, but not with a row that
has no datum: one such row keeps all that were taken with it from being committed, now and later.
-/
import StreamTable.Proofs.Avro.Encodable
import StreamTable.Proofs.Store.Interruption
import StreamTable.Proofs.Store.SchemaChange

namespace StreamTable
namespace Store

open StreamTable.Action

namespace DataFile

theorem ofRows_isOk_iff {schema s : Avro.Schema} (hs : schema.settle = .ok s) {codec : Value}
    {rows : List Value} :
    (∃ file, ofRows schema codec rows = .ok file) ↔
      (∃ c, Codec.ofSetting codec = .ok c) ∧
        ∀ row ∈ rows, ∃ d, Avro.Datum.write (.of s) Avro.maxNesting s row = .ok d := by
  have hmapError {ε ε' α : Type} {g : ε → ε'} {r : Except ε α} :
      (∃ x, r.mapError g = .ok x) ↔ ∃ x, r = .ok x :=
    ⟨fun ⟨x, hx⟩ => ⟨x, Except.ok_of_mapError hx⟩, fun ⟨x, hx⟩ => ⟨x, by rw [hx]; rfl⟩⟩
  rw [← Except.mapM_isOk_iff, ofRows, hs]
  show (∃ file, ((Codec.ofSetting codec).mapError Failure.data >>= _) = Except.ok file) ↔ _
  rw [Except.bind_isOk_iff, ← hmapError (g := Failure.data) (r := Codec.ofSetting codec)]
  constructor
  · rintro ⟨c, hc, h⟩
    exact ⟨⟨c, hc⟩, hmapError.mp (Except.map_isOk_iff.mp h)⟩
  · rintro ⟨⟨c, hc⟩, h⟩
    exact ⟨c, hc, Except.map_isOk_iff.mpr (hmapError.mpr h)⟩

end DataFile

namespace Table

/-- The manifest of a table can be read, and names the version that comes next. -/
def Awaits (t : Table) (d : Disk) (n : Int) : Prop :=
  ∃ m vs, t.manifest d = .ok m ∧ Manifest.nextVersion m = .ok n ∧
    Manifest.part m "versions" = .ok (.list vs)

/-- Before the first commit the first version is the next. -/
theorem awaits_first {t : Table} {d : Disk} (h : d.content? t.manifestPath = none) :
    t.Awaits d 1 := by
  refine ⟨Manifest.empty t.title, [], ?_, ?_, ?_⟩
  · rw [manifest, h]
  · exact Manifest.nextVersion_of_current (Manifest.empty_lists t.title).1
  · simp [Manifest.part, Manifest.empty, Value.ofFields, Value.field?, Value.lookup, Value.same]

end Table

namespace Writer

variable {w : Writer} {d : Disk} {n : Int}

/-- The rows among some that an open writer takes. -/
def taken (w : Writer) (rows : List Value) : List Value :=
  rows.filter fun row => Except.passes id (w.schema.fits row)

/-- The disk lets a commit of a version be carried out, whatever is written by it. -/
def Unopposed (t : Table) (d : Disk) (n : Int) : Prop :=
  d.faults.headD .none = .none ∧ ∀ file m, 
    (FileOp.performAll ((Undertaking.mk n d.serial file m).ops t) (begun d)).1 = true

theorem parent_child (p : Path) (name : String) : (p.child name).parent = p := by
  simp [Path.parent, Path.child]

/-- A folder is above what stands in its data folder. -/
theorem folder_ne_dataFolder_child (t : Table) (name : String) :
    t.folder.normal ≠ t.dataFolder.normal.child name ∧
      t.dataFolder.normal ≠ t.dataFolder.normal.child name := by
  constructor <;> intro h <;> have := congrArg (fun p => p.names.length) h
  · simp [t.dataFolder_normal, Path.child] at this
  · simp [Path.child] at this

/-- A disk without faults, on which the files of a commit can stand at their places. -/
theorem unopposed_of_canHold {t : Table} (hfaults : d.faults = [])
    (hplaces : ∀ p ∈ t.manifestPath :: scratch t n d.serial, d.canHold p = true) :
    Unopposed t d n := by
  refine ⟨by rw [hfaults]; rfl, fun file m => ?_⟩
  simp only [scratch, List.forall_mem_cons] at hplaces
  obtain ⟨hmanifest, hdraft, hfinal, hnext, -⟩ := hplaces
  have hnames : (dataPaths t n d.serial).1.normal.names ≠ [] := by
    rw [dataDraft_normal]
    exact Path.child_names_ne_nil _ _
  have hparent : (dataPaths t n d.serial).2.parent.normal ≠ (dataPaths t n d.serial).1.normal := by
    have hfolder : (dataPaths t n d.serial).2.parent = t.dataFolder := parent_child _ _
    rw [hfolder, dataDraft_normal]
    exact (folder_ne_dataFolder_child t _).2
  have hdata : (FileOp.performAll (dataOps t n d.serial (.rows file)) (begun d)).1 = true ∧
      (FileOp.performAll (dataOps t n d.serial (.rows file)) (begun d)).2.faults = [] :=
    FileOp.replace_done (by rw [begun, hfaults]; rfl) hdraft hfinal dataFile_ne_dataDraft hparent
      hnames rfl
  have hsame := FileOp.performAll_sameBut (dataOps t n d.serial (.rows file)) (begun d)
  rw [Undertaking.ops, FileOp.performAll_append]
  rcases hrun : FileOp.performAll (dataOps t n d.serial (.rows file)) (begun d) with ⟨done, d₁⟩
  rw [hrun] at hdata hsame
  obtain ⟨rfl, hnone⟩ := hdata
  -- The folder of the manifest is as it was, and so are the places in it.
  have hbeside {p : Path} (hp : p.normal = t.folder.normal ∨
      ∃ name, p.normal = t.folder.normal.child name) : d₁.content? p = d.content? p := by
    refine hsame p fun q hq => ?_
    obtain ⟨name, hname⟩ : ∃ name, q.normal = t.dataFolder.normal.child name := by
      simp only [dataOps, FileOp.paths, List.flatMap_cons, List.flatMap_nil, List.cons_append,
        List.nil_append, List.mem_cons, List.not_mem_nil, or_false] at hq
      obtain rfl | rfl | rfl := hq
      · exact ⟨_, dataDraft_normal t n d.serial⟩
      · exact ⟨_, dataDraft_normal t n d.serial⟩
      · exact ⟨_, dataFile_normal t n d.serial⟩
    rw [hname]
    obtain hp | ⟨beside, hp⟩ := hp
    · rw [hp]
      exact (folder_ne_dataFolder_child t name).1
    · rw [hp]
      exact t.dataFolder_child_ne.symm
  have hholds {name : String} (hname : name ≠ "..") (h : d.canHold (t.folder.child name) = true) :
      d₁.canHold (t.folder.child name) = true := by
    rw [← h]
    refine Disk.canHold_congr (hbeside ?_) (hbeside (.inr ⟨name, Path.normal_child hname⟩))
    rw [parent_child]
    exact .inl rfl
  have hnames' : t.draftPath.normal.names ≠ [] := by
    rw [t.draftPath_normal]
    exact Path.child_names_ne_nil _ _
  have hparent' : t.manifestPath.parent.normal ≠ t.draftPath.normal := by
    have hfolder : t.manifestPath.parent = t.folder := parent_child _ _
    rw [hfolder, t.draftPath_normal]
    intro h
    have := congrArg (fun p => p.names.length) h
    simp [Path.child] at this
  exact (FileOp.replace_done hnone (hholds (by decide) hnext) (hholds (by decide) hmanifest)
    t.draftPath_ne_manifestPath.symm hparent' hnames' rfl).1

theorem after_writes (hopen : w.closed = false) (rows : List Value) :
    after (rows.map .write) (w, d) = ({ w with buffer := w.buffer ++ w.taken rows }, d) := by
  induction rows generalizing w with
  | nil => simp [after, taken]
  | cons row rest ih =>
    show after (rest.map .write) ((write row).run (w, d)).state = _
    by_cases hfits : w.schema.fits row = .ok true
    · have hstate : ((write row).run (w, d)).state = ({ w with buffer := w.buffer ++ [row] }, d) := by
        rw [write_of_fits hopen hfits]
      rw [hstate, ih (w := { w with buffer := w.buffer ++ [row] }) hopen]
      simp [taken, hfits, Except.passes]
    · have hstate : ((write row).run (w, d)).state = (w, d) := by
        have hends := write_ends row w d
        unfold Ends at hends
        cases hresult : ((write row).run (w, d)).result with
        | error f => rwa [hresult] at hends
        | ok u =>
          rw [hresult] at hends
          exact absurd ((takes_iff hopen row).mp ⟨hresult, hends⟩) hfits
      have hrefused : Except.passes id (w.schema.fits row) = false := by
        rcases hresult : w.schema.fits row with f | _ | _
        · rfl
        · rfl
        · exact absurd hresult hfits
      rw [hstate, ih hopen]
      simp [taken, hrefused]

/-- A commit whose rows cannot be encoded fails, and changes nothing that is seen. -/
theorem flush_of_unencodable (hbuffer : w.buffer ≠ []) (hawaits : w.table.Awaits d n)
    (hdisk : Unopposed w.table d n) (h : ¬∃ file, DataFile.ofRows w.schema w.codec w.buffer = .ok file) :
    ∃ f, (flush.run (w, d)).result = .error f ∧ (flush.run (w, d)).state.1 = w ∧
      Disk.SameBut [(dataPaths w.table n d.serial).1] d (flush.run (w, d)).state.2 := by
  obtain ⟨m, vs, hm, hn, -⟩ := hawaits
  obtain ⟨hread, hops⟩ := hdisk
  have hnext : (Manifest.nextVersion m).mapError Failure.data = .ok n :=
    congrArg (Except.mapError Failure.data) hn
  refine Ends.outcome (R := fun result (x : Writer × Disk) => ∃ f, result = .error f ∧ x.1 = w ∧
    Disk.SameBut [(dataPaths w.table n d.serial).1] d x.2) ?_
  cases hf : DataFile.ofRows w.schema w.codec w.buffer with
  | ok file => exact absurd ⟨file, hf⟩ h
  | error f =>
    let draft := (dataPaths w.table n d.serial).1
    have hopened : ((FileOp.write draft (.text "")).perform (begun d)).1 = true := by
      rw [FileOp.perform_write_congr draft _ (.rows ⟨.null, .null, []⟩)]
      exact FileOp.performAll_head (hops ⟨.null, .null, []⟩ .null)
    have hsame := FileOp.perform_sameBut (.write draft (.text "")) (begun d)
    rcases hwrite : (FileOp.write draft (.text "")).perform (begun d) with ⟨done, d'⟩
    rw [hwrite] at hopened hsame
    cases hopened
    simp only [flush, ends_bind, ends_get]
    rw [if_neg (by simpa using hbuffer), ends_bind, ends_readManifest hread hm, hnext, ends_bind,
      ends_lift_ok, ends_bind, ends_freshSerial, ends_bind]
    exact (ends_writeData_of_error hf hwrite).mpr ⟨f, rfl, rfl, hsame⟩

/-- An undertaking comes from rows that can be encoded. -/
theorem undertaking_isOk_iff (hawaits : w.table.Awaits d n) :
    (∃ file, DataFile.ofRows w.schema w.codec w.buffer = .ok file) ↔
      ∃ u, w.undertaking d = .ok u ∧ u.version = n ∧ u.serial = d.serial := by
  obtain ⟨m, vs, hm, hn, hvs⟩ := hawaits
  constructor
  · rintro ⟨file, hfile⟩
    obtain ⟨m', hm'⟩ : ∃ m', w.extend m n d.serial d.now = .ok m' := by
      cases m with
      | map es =>
        have hversions : Value.field? es "versions" = some (.list vs) := by
          unfold Manifest.part at hvs
          cases hf : Value.field? es "versions" with
          | none =>
            simp only [hf] at hvs
            cases hvs
          | some v =>
            simp only [hf] at hvs
            exact congrArg some (Except.ok.inj hvs)
        exact ⟨_, by rw [extend, Manifest.withVersion, hversions]⟩
      | _ => cases hvs
    exact ⟨⟨n, d.serial, file, m'⟩, undertaking_iff.mpr ⟨m, hm, hn, rfl, hfile, hm'⟩, rfl, rfl⟩
  · rintro ⟨u, hu, -⟩
    obtain ⟨m', h⟩ := undertaking_iff.mp hu
    exact ⟨u.file, h.file⟩

/-- A commit whose rows can be encoded is done. -/
theorem flush_of_encodable (hbuffer : w.buffer ≠ []) (hawaits : w.table.Awaits d n)
    (hdisk : Unopposed w.table d n)
    (h : ∃ file, DataFile.ofRows w.schema w.codec w.buffer = .ok file) :
    (flush.run (w, d)).result = .ok true ∧ (flush.run (w, d)).state.1 = { w with buffer := [] } ∧
      ∃ c : Commit, c.IsOf w ∧ c.Extends w.table w.codec d (flush.run (w, d)).state.2 := by
  obtain ⟨u, hu, rfl, hserial⟩ := (undertaking_isOk_iff hawaits).mp h
  have hdone : (FileOp.performAll (u.ops w.table) (begun d)).1 = true := by
    have hops := hdisk.2 u.file u.manifest
    rwa [← hserial] at hops
  obtain ⟨hresult, hstate⟩ := flush_done hbuffer hdisk.1 hu hdone
  obtain ⟨m, hm⟩ := undertaking_iff.mp hu
  rw [hstate]
  exact ⟨hresult, rfl, _, ⟨rfl, rfl, rfl⟩, finished_extends hm (fun _ _ => rfl) hdone⟩

/-- The rows that are taken are accepted by what the schema of the writer stands for. -/
theorem accepted_of_taken {rows : List Value} (h : w.taken rows ≠ []) :
    ∃ s, w.schema.settle = .ok s ∧ ∀ row ∈ w.taken rows, Avro.Accepted (.of s) s row := by
  have hfits {row : Value} (hrow : row ∈ w.taken rows) : w.schema.fits row = .ok true := by
    obtain ⟨fits, hfits, rfl⟩ := Except.of_passes (List.mem_filter.mp hrow).2
    exact hfits
  cases hs : w.schema.settle with
  | error f =>
    obtain ⟨row, hrow⟩ := List.exists_mem_of_ne_nil _ h
    have := hfits hrow
    rw [Avro.Schema.fits, hs] at this
    cases this
  | ok s =>
    refine ⟨s, rfl, fun row hrow => ⟨Avro.maxNesting, "", ?_⟩⟩
    have := hfits hrow
    rw [Avro.Schema.fits, hs] at this
    exact Except.ok_of_mapError this

/-- A flush of the rows that an open writer has taken, on a disk that lets it be carried out.  It is
done, and the rows are a version more, just when the codec is known and each of the rows can be
encoded: nothing without a datum is met in it.  Otherwise it fails, the rows stay in the buffer, and
nothing of the table is changed. -/
theorem flush_commits_iff {t : Table} {codec : Value} {schema : Avro.Schema} {d₀ d : Disk}
    (hopened : ((create t codec schema).run d₀).result = .ok w) (rows : List Value)
    (hawaits : t.Awaits d n) (hdisk : Unopposed t d n) :
    let x := after (rows.map .write) (w, d)
    let e := flush.run x
    x = ({ w with buffer := w.taken rows }, d) ∧
    (w.taken rows = [] → e.result = .ok true ∧ e.state = x) ∧
    (w.taken rows ≠ [] → ∃ s, w.schema.settle = .ok s ∧
      ((e.result = .ok true ∧ e.state.1 = w ∧
          ∃ (c : Commit) (vs : List Value), c.rows = w.taken rows ∧ t.versions d = .ok vs ∧
            t.versions e.state.2 = .ok (vs ++ [c.entry]) ∧ c.OnDisk t codec e.state.2) ↔
        (∃ c, Codec.ofSetting codec = .ok c) ∧
          ∀ row ∈ w.taken rows, ¬Avro.Datum.Blocked (.of s) Avro.maxNesting s row) ∧
      (e.result ≠ .ok true → ∃ f, e.result = .error f ∧ e.state.1 = x.1 ∧
        Disk.SameBut [(dataPaths t n d.serial).1] d e.state.2)) := by
  intro x e
  obtain ⟨htable, hcodec, hbuffer, hopen, -⟩ := (create_ends t codec schema d₀).ok hopened
  obtain rfl := htable
  obtain rfl := hcodec
  have hx : x = ({ w with buffer := w.taken rows }, d) := by
    show after (rows.map .write) (w, d) = _
    rw [after_writes hopen, hbuffer, List.nil_append]
  have he : e = flush.run ({ w with buffer := w.taken rows }, d) := congrArg flush.run hx
  refine ⟨hx, fun hnone => ?_, fun hsome => ?_⟩
  · rw [he, hx]
    refine Ends.outcome (R := fun result y => result = .ok true ∧ y = _) ?_
    rw [flush_ends_of_empty hnone]
    exact ⟨rfl, rfl⟩
  · obtain ⟨s, hs, haccepted⟩ := accepted_of_taken hsome
    refine ⟨s, hs, ?_⟩
    have hencodable : (∃ file, DataFile.ofRows w.schema w.codec (w.taken rows) = .ok file) ↔
        (∃ c, Codec.ofSetting w.codec = .ok c) ∧
          ∀ row ∈ w.taken rows, ¬Avro.Datum.Blocked (.of s) Avro.maxNesting s row := by
      rw [DataFile.ofRows_isOk_iff hs]
      exact and_congr_right fun _ => forall₂_congr fun row hrow =>
        Avro.Datum.write_isOk_iff _ (haccepted row hrow)
    rw [← hencodable, he]
    by_cases hfile : ∃ file, DataFile.ofRows w.schema w.codec (w.taken rows) = .ok file
    · obtain ⟨hresult, hstate, c, hof, hextends⟩ := flush_of_encodable
        (w := { w with buffer := w.taken rows }) hsome hawaits hdisk hfile
      obtain ⟨vs, hvs, hvs'⟩ := hextends.listed
      refine ⟨iff_of_true ⟨hresult, ?_, c, vs, hof.rows, hvs, hvs', hextends.onDisk⟩ hfile,
        fun hnot => absurd hresult hnot⟩
      rw [hstate]
      obtain ⟨table, codec, schema, fingerprint, buffer, closed⟩ := w
      obtain rfl : buffer = [] := hbuffer
      rfl
    · obtain ⟨f, hresult, hstate, hsame⟩ := flush_of_unencodable
        (w := { w with buffer := w.taken rows }) hsome hawaits hdisk hfile
      refine ⟨iff_of_false ?_ hfile, fun _ => ⟨f, hresult, ?_, hsame⟩⟩
      · rintro ⟨hok, -⟩
        cases hresult.symm.trans hok
      · rw [hstate, hx]

end Writer

/-! ## Rows of one field -/

namespace Fleet

/-- A field whose type is null, but does not name null outright. -/
def nullNode : Value :=
  Value.ofFields [("type", .str "record"), ("name", .str "N"),
    ("fields", .list [Value.ofFields [("name", .str "x"),
      ("type", Value.ofFields [("type", .str "null")])]])]

/-- Whether a disk is one on which the first commit of a table can be carried out. -/
def isFresh (t : Table) (d : Disk) : Bool :=
  (d.content? t.manifestPath).isNone && d.faults.isEmpty &&
    (t.manifestPath :: Writer.scratch t 1 d.serial).all d.canHold

theorem of_isFresh {t : Table} {d : Disk} (h : isFresh t d = true) :
    t.Awaits d 1 ∧ Writer.Unopposed t d 1 := by
  simp only [isFresh, Bool.and_eq_true, Option.isNone_iff_eq_none, List.isEmpty_iff] at h
  obtain ⟨⟨hnew, hfaults⟩, hplaces⟩ := h
  exact ⟨Table.awaits_first hnew, Writer.unopposed_of_canHold hfaults (List.all_eq_true.mp hplaces)⟩

/-- A row that is taken without the field cannot be committed, on a disk that lets a commit be
carried out. -/
theorem missing_null_uncommitted : ∃ s w, Avro.Schema.parse nullNode = .ok s ∧
    ((Writer.create orders (.str "null") s).run .empty).result = .ok w ∧
    let d := ((Writer.create orders (.str "null") s).run .empty).state
    let taken := (Writer.write (.map [])).run (w, d)
    orders.Awaits d 1 ∧ Writer.Unopposed orders d 1 ∧ taken.result = .ok () ∧
      (Writer.flush.run taken.state).result ≠ .ok true ∧
      (Writer.flush.run taken.state).state.1.buffer.length = 1 := by
  have hrun : Except.passes (fun s =>
      let created := (Writer.create orders (.str "null") s).run .empty
      isFresh orders created.state && Except.passes (fun w =>
        let taken := (Writer.write (.map [])).run (w, created.state)
        let flushed := Writer.flush.run taken.state
        Except.passes (fun _ => true) taken.result && !Except.passes id flushed.result &&
          flushed.state.1.buffer.length == 1) created.result)
      (Avro.Schema.parse nullNode) = true := by
    decide +kernel
  obtain ⟨s, hs, hrun⟩ := Except.of_passes hrun
  obtain ⟨hfresh, hrun⟩ := Bool.and_eq_true_iff.mp hrun
  obtain ⟨w, hw, hrun⟩ := Except.of_passes hrun
  simp only [Bool.and_eq_true, Bool.not_eq_true', beq_iff_eq] at hrun
  obtain ⟨⟨htaken, hfailed⟩, hbuffer⟩ := hrun
  obtain ⟨⟨⟩, htaken, -⟩ := Except.of_passes htaken
  obtain ⟨hawaits, hunopposed⟩ := of_isFresh hfresh
  refine ⟨s, w, hs, hw, hawaits, hunopposed, htaken, fun hdone => ?_, hbuffer⟩
  rw [hdone] at hfailed
  cases hfailed

/-- Two rows, of which one has a number. -/
def mixedOrders : List Value :=
  [Value.ofFields [("id", .int 1)], Value.ofFields [("id", .str "x")]]

theorem number_committed : ∃ w,
    ((Writer.create orders (.str "null") numberedOrder).run .empty).result = .ok w ∧
    let d := ((Writer.create orders (.str "null") numberedOrder).run .empty).state
    let e := Writer.flush.run (Writer.after (mixedOrders.map .write) (w, d))
    e.result = .ok true ∧ ∃ (c : Commit) (vs : List Value), c.rows.length = 1 ∧
      orders.versions d = .ok vs ∧ orders.versions e.state.2 = .ok (vs ++ [c.entry]) := by
  have hrun : (let created := (Writer.create orders (.str "null") numberedOrder).run .empty
      isFresh orders created.state && Except.passes (fun w => (w.taken mixedOrders).length == 1 &&
        Except.passes (fun s => (w.taken mixedOrders).all fun row =>
          Except.passes (fun _ => true) (Avro.Datum.write (.of s) Avro.maxNesting s row))
          w.schema.settle) created.result) = true := by
    decide +kernel
  obtain ⟨hfresh, hrun⟩ := Bool.and_eq_true_iff.mp hrun
  obtain ⟨w, hw, hrun⟩ := Except.of_passes hrun
  simp only [Bool.and_eq_true, beq_iff_eq] at hrun
  obtain ⟨hone, hrun⟩ := hrun
  obtain ⟨s, hs, hwritten⟩ := Except.of_passes hrun
  obtain ⟨hawaits, hunopposed⟩ := of_isFresh hfresh
  have hsome : w.taken mixedOrders ≠ [] := by
    intro hnone
    rw [hnone] at hone
    cases hone
  obtain ⟨s', hs', haccepted⟩ := Writer.accepted_of_taken hsome
  obtain rfl : s' = s := Except.ok.inj (hs'.symm.trans hs)
  obtain ⟨-, -, h⟩ := Writer.flush_commits_iff hw mixedOrders hawaits hunopposed
  obtain ⟨s', hs', hiff, -⟩ := h hsome
  obtain rfl := Except.ok.inj (hs'.symm.trans hs)
  obtain ⟨hresult, -, c, vs, hrows, hvs, hvs', -⟩ := hiff.mpr ⟨⟨.null, rfl⟩, fun row hrow => by
    obtain ⟨d, hd, -⟩ := Except.of_passes (List.all_eq_true.mp hwritten row hrow)
    exact (Avro.Datum.write_isOk_iff _ (haccepted row hrow)).mp ⟨d, hd⟩⟩
  exact ⟨w, hw, hresult, c, vs, by rw [hrows]; exact hone, hvs, hvs'⟩

end Fleet
end Store
end StreamTable
