/-
What a flush sets out to do.  The manifest and the buffered rows settle all of it before a file is
touched: the number of the version, its data file, the manifest that lists it, and so the file
operations.  What a flush comes to is then what these operations come to on the disk.
-/
import StreamTable.Proofs.Store.Commit

namespace StreamTable
namespace Store

open StreamTable.Action

namespace FileOp

theorem performAll_append (ops ops' : List FileOp) (d : Disk) :
    performAll (ops ++ ops') d =
      match performAll ops d with
      | (true, d') => performAll ops' d'
      | (false, d') => (false, d') := by
  induction ops generalizing d with
  | nil => rfl
  | cons op rest ih =>
    rw [List.cons_append, performAll, performAll]
    rcases op.perform d with ⟨_ | _, d'⟩
    · rfl
    · exact ih d'

/-- Whether a file can be written does not depend on what is written. -/
theorem perform_write_congr (p : Path) (c c' : Content) (d : Disk) :
    ((FileOp.write p c).perform d).1 = ((FileOp.write p c').perform d).1 := by
  rw [perform, perform]
  cases d.faults.headD .none with
  | none =>
    simp only [carryOut?]
    cases Disk.canHold { d with faults := d.faults.tail } p <;> rfl
  | refused => rfl
  | torn => rfl

theorem performAll_head {op : FileOp} {rest : List FileOp} {d : Disk}
    (h : (performAll (op :: rest) d).1 = true) : (op.perform d).1 = true := by
  rw [performAll] at h
  rcases hop : op.perform d with ⟨_ | _, d'⟩
  · rw [hop] at h
    cases h
  · rfl

theorem performAll_single (op : FileOp) (d : Disk) : performAll [op] d = op.perform d := by
  rw [performAll]
  rcases op.perform d with ⟨_ | _, d'⟩
  · rfl
  · rfl

end FileOp

namespace Disk

variable {d d' : Disk} {p : Path}

theorem canHold_congr (hfolder : d'.content? p.parent = d.content? p.parent)
    (hplace : d'.content? p = d.content? p) : d'.canHold p = d.canHold p := by
  rw [canHold, canHold, isFolder, isFolder, isFolder, isFolder, hfolder, hplace]

end Disk

namespace FileOp

variable {d : Disk} {draft final : Path} {c : Content}

/-- On a disk without faults, what can be carried out is done. -/
theorem perform_of_carryOut? {op : FileOp} {d' : Disk} (hfaults : d.faults = [])
    (h : op.carryOut? d = some d') : op.perform d = (true, d') := by
  obtain ⟨entries, serial, faults, now⟩ := d
  obtain rfl : faults = [] := hfaults
  unfold perform
  dsimp only [List.headD_nil, List.tail_nil]
  rw [h]

/-- On a disk without faults, a file that can stand beside another one can take its place. -/
theorem replace_done (hfaults : d.faults = []) (hdraft : d.canHold draft = true)
    (hfinal : d.canHold final = true) (hne : final.normal ≠ draft.normal)
    (hparent : final.parent.normal ≠ draft.normal) (hnames : draft.normal.names ≠ [])
    (hc : c.isFolder = false) :
    (performAll [.write draft c, .rename draft final] d).1 = true ∧
      (performAll [.write draft c, .rename draft final] d).2.faults = [] := by
  obtain ⟨entries, serial, faults, now⟩ := d
  obtain rfl : faults = [] := hfaults
  let d : Disk := ⟨entries, serial, [], now⟩
  have hwrite : (FileOp.write draft c).perform d = (true, d.put draft c) := by
    refine perform_of_carryOut? rfl ?_
    rw [carryOut?, if_pos hdraft]
  have hthere : (d.put draft c).content? draft = some c := Disk.content?_put_same d c rfl hnames
  have hholds : (d.put draft c).canHold final = true := by
    rw [Disk.canHold_congr (Disk.content?_put_other d c hparent) (Disk.content?_put_other d c hne)]
    exact hfinal
  have hrename : (FileOp.rename draft final).perform (d.put draft c) =
      (true, ((d.put draft c).remove draft).put final c) := by
    refine perform_of_carryOut? rfl ?_
    simp only [carryOut?, hthere, hholds, hc, Bool.not_false, Bool.and_self, if_true]
  have hall : performAll [.write draft c, .rename draft final] d =
      (true, ((d.put draft c).remove draft).put final c) := by
    rw [performAll, hwrite]
    dsimp only
    rw [performAll_single, hrename]
  rw [hall]
  exact ⟨rfl, rfl⟩

end FileOp

/-- All that a flush is going to write. -/
structure Undertaking where
  version : Int
  serial : Nat
  file : DataFile
  manifest : Value

namespace Undertaking

variable (u : Undertaking) (t : Table)

/-- The file operations of a flush, in order. -/
def ops : List FileOp :=
  Writer.dataOps t u.version u.serial (.rows u.file) ++ Writer.manifestOps t u.manifest

/-- The temporary data file, and the place that it is moved to. -/
def draft : Path := (Writer.dataPaths t u.version u.serial).1

def final : Path := (Writer.dataPaths t u.version u.serial).2

theorem ops_eq : u.ops t = [.write (u.draft t) (.rows u.file), .rename (u.draft t) (u.final t),
    .write t.draftPath (.document u.manifest), .rename t.draftPath t.manifestPath] := rfl

end Undertaking

namespace Writer

variable {w : Writer} {d : Disk} {u : Undertaking}

/-- What a flush is going to write, if the manifest can be read and the rows can be encoded. -/
def undertaking (w : Writer) (d : Disk) : Except Failure Undertaking := do
  let m ← w.table.manifest d
  let version ← (Manifest.nextVersion m).mapError Failure.data
  let file ← DataFile.ofRows w.schema w.codec w.buffer
  let m ← (w.extend m version d.serial d.now).mapError Failure.data
  pure ⟨version, d.serial, file, m⟩

/-- What is settled by an undertaking. -/
structure Undertakes (w : Writer) (d : Disk) (u : Undertaking) (m : Value) : Prop where
  manifest : w.table.manifest d = .ok m
  next : Manifest.nextVersion m = .ok u.version
  serial : u.serial = d.serial
  file : DataFile.ofRows w.schema w.codec w.buffer = .ok u.file
  extend : w.extend m u.version u.serial d.now = .ok u.manifest

theorem undertaking_iff : w.undertaking d = .ok u ↔ ∃ m, w.Undertakes d u m := by
  constructor
  · intro h
    obtain ⟨m, hm, h⟩ := Except.of_bind_ok h
    obtain ⟨n, hn, h⟩ := Except.of_bind_ok h
    obtain ⟨file, hfile, h⟩ := Except.of_bind_ok h
    obtain ⟨m', hm', h⟩ := Except.of_bind_ok h
    cases h
    exact ⟨m, hm, Except.ok_of_mapError hn, rfl, hfile, Except.ok_of_mapError hm'⟩
  · rintro ⟨m, hm, hn, hserial, hfile, hm'⟩
    obtain ⟨n, i, file, m'⟩ := u
    cases hserial
    simp only [undertaking, hm, hfile]
    show ((Manifest.nextVersion m).mapError Failure.data >>= _) = _
    rw [hn]
    show ((w.extend m n d.serial d.now).mapError Failure.data >>= _) = _
    rw [hm']
    rfl

theorem Undertakes.nextVersion {m : Value} (h : w.Undertakes d u m) :
    w.table.nextVersion d = .ok u.version := by
  rw [Table.nextVersion, h.manifest]
  exact congrArg (Except.mapError Failure.data) h.next

/-- The disk once the manifest was read and the data file has a name. -/
def begun (d : Disk) : Disk := { d with faults := d.faults.tail, serial := d.serial + 1 }

/-- A file is deleted if it is there.  The answer says whether nothing stands in its place now. -/
def deleted (p : Path) (d : Disk) : Bool × Disk :=
  if d.isThere p then (FileOp.delete p).perform d else (true, d)

/-- What a flush that is given up does: the temporary data file and the data file are deleted. -/
def cleaned (t : Table) (u : Undertaking) (d : Disk) : Bool × Disk :=
  match deleted (u.draft t) d with
  | (true, d) => deleted (u.final t) d
  | (false, d) => (false, d)

theorem ends_discard {p : Path} {Q : Unit → Writer × Disk → Prop}
    {E : Failure → Writer × Disk → Prop} :
    (discard p).Ends (w, d) Q E ↔
      match deleted p d with
      | (true, d') => Q () (w, d')
      | (false, d') => E (.storage ("cannot remove " ++ p.text)) (w, d') := by
  simp only [discard, ends_bind, ends_get]
  unfold deleted
  by_cases hthere : d.isThere p = true
  · rw [if_pos hthere, if_pos hthere, ends_bind, ends_perform]
    rw [FileOp.performAll_single]
    rcases hdelete : (FileOp.delete p).perform d with ⟨_ | _, d'⟩
    · exact Iff.rfl
    · exact Iff.rfl
  · rw [if_neg hthere, if_neg hthere]
    exact Iff.rfl

/-- A flush that is given up is not done; it fails only if it cannot be cleaned up after. -/
theorem ends_abandon {Q : Bool → Writer × Disk → Prop} {E : Failure → Writer × Disk → Prop} :
    (abandon u.version u.serial).Ends (w, d) Q E ↔
      match deleted (u.draft w.table) d with
      | (true, d₁) =>
        match deleted (u.final w.table) d₁ with
        | (true, d₂) => Q false (w, d₂)
        | (false, d₂) => E (.storage ("cannot remove " ++ (u.final w.table).text)) (w, d₂)
      | (false, d₁) => E (.storage ("cannot remove " ++ (u.draft w.table).text)) (w, d₁) := by
  simp only [abandon, ends_bind, ends_get, ends_log]
  show (discard (u.draft w.table)).Ends (w, d) (fun _ x => (discard (u.final w.table)).Ends x _ E)
    E ↔ _
  rw [ends_discard]
  rcases deleted (u.draft w.table) d with ⟨_ | _, d₁⟩
  · exact Iff.rfl
  · dsimp only
    rw [ends_discard]
    rcases deleted (u.final w.table) d₁ with ⟨_ | _, d₂⟩
    · exact Iff.rfl
    · exact Iff.rfl

theorem ends_abandon_of_cleaned {d' : Disk} (h : cleaned w.table u d = (true, d'))
    {Q : Bool → Writer × Disk → Prop} {E : Failure → Writer × Disk → Prop} :
    (abandon u.version u.serial).Ends (w, d) Q E ↔ Q false (w, d') := by
  rw [ends_abandon]
  unfold cleaned at h
  rcases hdraft : deleted (u.draft w.table) d with ⟨_ | _, d₁⟩
  · rw [hdraft] at h
    cases h
  · rw [hdraft] at h
    dsimp only at h ⊢
    rw [h]

theorem ends_readManifest {m : Value} (hread : d.faults.headD .none = .none)
    (hm : w.table.manifest d = .ok m) {Q : Value → Writer × Disk → Prop}
    {E : Failure → Writer × Disk → Prop} :
    readManifest.Ends (w, d) Q E ↔ Q m (w, { d with faults := d.faults.tail }) := by
  have hrun : readManifest.run (w, d) = ⟨.ok m, (w, { d with faults := d.faults.tail }), []⟩ := by
    show readManifest (w, d) = _
    simp only [readManifest, hread, hm]
  unfold Ends
  rw [hrun]

theorem ends_writeData {n : Int} {i : Nat} {file : DataFile}
    (hfile : DataFile.ofRows w.schema w.codec w.buffer = .ok file)
    {Q : Bool → Writer × Disk → Prop} {E : Failure → Writer × Disk → Prop} :
    (writeData n i).Ends (w, d) Q E ↔
      Q (FileOp.performAll (dataOps w.table n i (.rows file)) d).1
        (w, (FileOp.performAll (dataOps w.table n i (.rows file)) d).2) := by
  simp only [writeData, ends_bind, ends_get, hfile]
  exact Iff.rfl

/-- Rows that cannot be encoded end a commit once the temporary file is open. -/
theorem ends_writeData_of_error {n : Int} {i : Nat} {f : Failure} {done : Bool} {d' : Disk}
    (hf : DataFile.ofRows w.schema w.codec w.buffer = .error f)
    (hwrite : (FileOp.write (dataPaths w.table n i).1 (.text "")).perform d = (done, d'))
    {Q : Bool → Writer × Disk → Prop} {E : Failure → Writer × Disk → Prop} :
    (writeData n i).Ends (w, d) Q E ↔ if done then E f (w, d') else Q false (w, d') := by
  simp only [writeData, ends_bind, ends_get, hf]
  show (perform [.write (dataPaths w.table n i).1 (.text "")]).Ends (w, d) _ E ↔ _
  rw [ends_perform, FileOp.performAll_single, hwrite]
  cases done with
  | true => exact Iff.rfl
  | false => exact Iff.rfl

/-- A flush does the file operations that it set out to do, and gives up if one of them fails. -/
theorem ends_flush (hbuffer : w.buffer ≠ []) (hread : d.faults.headD .none = .none)
    (hu : w.undertaking d = .ok u) {Q : Bool → Writer × Disk → Prop}
    {E : Failure → Writer × Disk → Prop} :
    flush.Ends (w, d) Q E ↔
      match FileOp.performAll (u.ops w.table) (begun d) with
      | (true, d') => Q true ({ w with buffer := [] }, d')
      | (false, d') => (abandon u.version u.serial).Ends (w, d') Q E := by
  obtain ⟨m, h⟩ := undertaking_iff.mp hu
  have hnext : (Manifest.nextVersion m).mapError Failure.data = .ok u.version :=
    congrArg (Except.mapError Failure.data) h.next
  have hextend : (w.extend m u.version u.serial d.now).mapError Failure.data = .ok u.manifest :=
    congrArg (Except.mapError Failure.data) h.extend
  simp only [flush, ends_bind, ends_get]
  rw [if_neg (by simpa using hbuffer), ends_bind, ends_readManifest hread h.manifest, hnext,
    ends_bind, ends_lift_ok, ends_bind, ends_freshSerial, ends_bind, ends_writeData h.file,
    ← h.serial, Undertaking.ops, FileOp.performAll_append]
  unfold begun
  rw [← h.serial]
  rcases hdata : FileOp.performAll (dataOps w.table u.version u.serial (.rows u.file)) _
    with ⟨_ | _, d₁⟩
  · exact Iff.rfl
  · dsimp only
    rw [Bool.not_true, if_neg Bool.false_ne_true, ends_bind, hextend, ends_lift_ok, ends_bind,
      ends_perform]
    rcases FileOp.performAll (manifestOps w.table u.manifest) d₁ with ⟨_ | _, d₂⟩
    · exact Iff.rfl
    · exact Iff.rfl

end Writer
end Store
end StreamTable
