/-
A sink loses no rows and takes none twice.  While nobody else writes a table, the rows in the data
files that a loop has added to it, in the manifest's order, and then the rows in the buffer of the
open writer, are the rows of the records that count as written, whatever operation of the disk fails
on the way.
-/
import StreamTable.Proofs.Sink.History
import StreamTable.Proofs.Store.Commit

namespace StreamTable
namespace Store

open StreamTable.Action

/-- A disk comes from an earlier one by commits, oldest first, and by whatever changes no version. -/
structure Grown (t : Table) (codec : Value) (d₀ d : Disk) (commits : List Commit) : Prop where
  next : t.nextVersion d = (t.nextVersion d₀).map fun n => n + (commits.length : Int)
  listed : t.versions d = (t.versions d₀).map (· ++ commits.map Commit.entry)
  /-- No commit has the number of the version that comes next. -/
  earlier : ∀ c ∈ commits, ∀ n, t.nextVersion d = .ok n → c.version < n
  onDisk : ∀ c ∈ commits, c.OnDisk t codec d

namespace Grown

variable {t : Table} {codec : Value} {d₀ d d' : Disk} {commits : List Commit} {c : Commit}

theorem refl (t : Table) (codec : Value) (d : Disk) : Grown t codec d d [] where
  next := by cases h : t.nextVersion d <;> simp [Except.map]
  listed := by cases h : t.versions d <;> simp [Except.map]
  earlier := List.forall_mem_nil _
  onDisk := List.forall_mem_nil _

/-- What spares the versions of the table is no commit. -/
theorem of_spares (h : Grown t codec d₀ d commits) (hs : Spares t d d') :
    Grown t codec d₀ d' commits := by
  have hnext := Table.nextVersion_congr hs.manifest
  exact ⟨hnext.trans h.next, (Table.versions_congr hs.manifest).trans h.listed,
    fun c hc n hn => h.earlier c hc n (hnext.symm.trans hn),
    fun c hc => (h.onDisk c hc).congr (hs.dataFile _ _ (h.earlier c hc))⟩

theorem commit (h : Grown t codec d₀ d commits) (hc : c.Extends t codec d d') :
    Grown t codec d₀ d' (commits ++ [c]) where
  next := by
    have hnext := h.next
    rw [hc.next] at hnext
    rw [hc.next']
    cases h₀ : t.nextVersion d₀ with
    | error f => rw [h₀] at hnext; cases hnext
    | ok n =>
      rw [h₀] at hnext
      have hn : c.version = n + commits.length := Except.ok.inj hnext
      simp only [Except.map, List.length_append, List.length_singleton]
      rw [hn]
      congr 1
      omega
  listed := by
    obtain ⟨vs, hvs, hvs'⟩ := hc.listed
    have hlisted := h.listed
    rw [hvs] at hlisted
    rw [hvs']
    cases h₀ : t.versions d₀ with
    | error f => rw [h₀] at hlisted; cases hlisted
    | ok vs₀ =>
      rw [h₀] at hlisted
      have hn : vs = vs₀ ++ commits.map Commit.entry := Except.ok.inj hlisted
      simp [Except.map, hn]
  earlier := by
    intro c' hc' n hn
    rw [hc.next'] at hn
    have hn : c.version + 1 = n := Except.ok.inj hn
    obtain hc' | hc' := List.mem_append.mp hc'
    · have := h.earlier c' hc' _ hc.next
      omega
    · rw [List.mem_singleton.mp hc']
      omega
  onDisk := by
    intro c' hc'
    obtain hc' | hc' := List.mem_append.mp hc'
    · have hlt := h.earlier c' hc' _ hc.next
      exact (h.onDisk c' hc').congr (hc.dataFile hlt _)
    · rw [List.mem_singleton.mp hc']
      exact hc.onDisk

end Grown

/-! ## The books of a table -/

section Accounts

variable {t : Table} {codec : Value} {d₀ d d' : Disk} {w : Writer} {k : Books}

/-- The committed rows in the books are those of the versions that were added to the table. -/
def Delivers (t : Table) (codec : Value) (d₀ d : Disk) (k : Books) : Prop :=
  ∃ commits : List Commit, Grown t codec d₀ d commits ∧
    (commits.map Commit.rows).flatten = k.committed.map Prod.snd ∧ commits.length = k.commits

/-- The pending rows in the books are those in the buffer of the open writer. -/
structure Holds (t : Table) (codec : Value) (d₀ : Disk) (w : Writer) (d : Disk) (k : Books) :
    Prop where
  delivers : Delivers t codec d₀ d k
  table : w.table = t
  codec : w.codec = codec
  buffer : w.buffer = k.pending.map Prod.snd

theorem Delivers.of_spares (h : Delivers t codec d₀ d k) (hs : Spares t d d') :
    Delivers t codec d₀ d' k := by
  obtain ⟨commits, hgrown, hrows, hcommits⟩ := h
  exact ⟨commits, hgrown.of_spares hs, hrows, hcommits⟩

theorem Delivers.commit {c : Commit} (h : Delivers t codec d₀ d k) (hc : c.Extends t codec d d')
    (hrows : c.rows = k.pending.map Prod.snd) : Delivers t codec d₀ d' k.commit := by
  obtain ⟨commits, hgrown, hcommitted, hcommits⟩ := h
  refine ⟨commits ++ [c], hgrown.commit hc, ?_, ?_⟩
  · rw [List.map_append, List.flatten_append, hcommitted]
    simp [Books.commit, hrows]
  · rw [List.length_append, hcommits]
    rfl

/-- Opening a writer adds nothing to a table on a straight path. -/
theorem create_ends (hs : t.IsStraight) (schema : Avro.Schema) (h : Delivers t codec d₀ d k)
    (hp : k.pending = []) :
    (Writer.create t codec schema).Ends d (fun w d' => Holds t codec d₀ w d' k)
      (fun _ d' => Delivers t codec d₀ d' k) := by
  refine (Writer.create_ends t codec schema d).mono (fun w d' hw => ?_) fun _ d' hd' => ?_
  · obtain ⟨htable, hcodec, hbuffer, -, hfolders⟩ := hw
    refine ⟨h.of_spares (makeFolders_spares hs hfolders), htable, hcodec, ?_⟩
    rw [hbuffer, hp]
    rfl
  · rw [hd']
    exact h

theorem write_ends (r : Record) (row : Value) (h : Holds t codec d₀ w d k) :
    (Writer.write row).Ends (w, d) (fun _ x => Holds t codec d₀ x.1 x.2 (k.write r row))
      (fun _ x => Holds t codec d₀ x.1 x.2 k) := by
  refine (Writer.write_ends row w d).mono (fun _ x hx => ?_) fun _ x hx => ?_
  · rw [hx]
    exact ⟨h.delivers, h.table, h.codec, by simp [h.buffer]⟩
  · rw [hx]
    exact h

theorem flush_ends (h : Holds t codec d₀ w d k) (hp : k.pending ≠ []) :
    Writer.flush.Ends (w, d)
      (fun done x => Holds t codec d₀ x.1 x.2 (if done then k.commit else k))
      (fun _ x => Holds t codec d₀ x.1 x.2 k) := by
  have hbuffer : w.buffer ≠ [] := by
    rw [h.buffer]
    simpa using hp
  obtain ⟨hdelivers, rfl, rfl, hrows⟩ := h
  refine (Writer.flush_ends hbuffer).mono (fun done x hx => ?_) fun _ x hx => ?_
  · cases done with
    | true =>
      rw [if_pos rfl] at hx ⊢
      obtain ⟨hw, c, hc, hextends⟩ := hx
      rw [hw]
      exact ⟨hdelivers.commit hextends (hc.rows.trans hrows), rfl, rfl, rfl⟩
    | false =>
      rw [if_neg Bool.false_ne_true] at hx ⊢
      rw [hx.1]
      exact ⟨hdelivers.of_spares hx.2.spares, rfl, rfl, hrows⟩
  · rw [hx.1]
    exact ⟨hdelivers.of_spares hx.2.spares, rfl, rfl, hrows⟩

/-- A writer with an empty buffer commits nothing when it is closed. -/
theorem close_ends (h : Holds t codec d₀ w d k) (hp : k.pending = []) :
    Writer.close.Ends (w, d) (fun _ x => Delivers t codec d₀ x.2 k)
      (fun _ x => Delivers t codec d₀ x.2 k) := by
  have hbuffer : w.buffer = [] := by
    rw [h.buffer, hp]
    rfl
  simp only [Writer.close, ends_bind, ends_get]
  rw [ends_ite]
  refine ⟨fun _ => h.delivers, fun _ => ?_⟩
  rw [ends_bind, Writer.flush_ends_of_empty hbuffer]
  exact h.delivers

/-- Writers on disk keep account of their rows by the versions of the table. -/
def accounts (storage : List (Value × Value)) (ht : tableOf storage = .ok t) (hs : t.IsStraight)
    (d₀ : Disk) : (backend storage).Accounts where
  Opened w d k := Holds t (settingOr storage "codec" "null") d₀ w d k
  Closed d k := Delivers t (settingOr storage "codec" "null") d₀ d k
  create_ends schema h hp := by
    simp only [backend, createBySettings]
    rw [ends_ite]
    refine ⟨fun _ => ?_, fun _ => h⟩
    rw [ends_bind, ht, ends_lift_ok]
    exact create_ends hs schema h hp
  updateSchema_ends {w d k} schema h := by
    simp only [backend, Writer.updateSchema, ends_bind, ends_get]
    rw [ends_lift]
    exact ⟨fun _ _ => h, fun _ _ => h⟩
  write_ends r row h := write_ends r row h
  flush_ends h hp := flush_ends h hp
  close_ends h hp := close_ends h hp
  acknowledge_ends h _ _ := ⟨h.delivers, h.table, h.codec, h.buffer⟩

end Accounts

theorem delivers_start (t : Table) (codec : Value) (d : Disk) : Delivers t codec d d .empty :=
  ⟨[], Grown.refl t codec d, rfl, rfl⟩

/-- Nothing is lost, nothing is taken twice, and nothing changes places.  At any point of a history,
the versions that were added to the table hold, with the rows in the buffer of the open writer, the
rows of the records that count as written, in the order in which these came; the table has so many
versions more as commits were counted; and while the loop runs the buffer is what the window counts.
The table stands on a straight path; the disk may refuse any operation on the way, and tear any file that is being written. -/
theorem rows_delivered_in_order (storage : List (Value × Value)) (t : Table)
    (ht : tableOf storage = .ok t) (hs : t.IsStraight) (p : Plan) (events : List Loop.Event)
    (d₀ : Disk) (now : Double) :
    let l := Loop.after p (backend storage) events (Loop.start d₀ now)
    let d := l.coordinator.world
    let written := Loop.delivered p (backend storage) events (Loop.start d₀ now)
    let buffer := (l.coordinator.writer.map Writer.buffer).getD []
    ∃ commits : List Commit,
      t.versions d = (t.versions d₀).map (· ++ commits.map Commit.entry) ∧
      (∀ c ∈ commits, c.OnDisk t (settingOr storage "codec" "null") d) ∧
      (commits.map Commit.rows).flatten ++ buffer = written.map Prod.snd ∧
      (written.map Prod.fst).Sublist (Loop.records events) ∧
      written.length = l.coordinator.totals.written ∧
      (t.nextVersion d = (t.nextVersion d₀).map fun n => n + (l.coordinator.totals.commits : Int)) ∧
      (l.running = true → buffer.length = l.window.records) := by
  intro l d written buffer
  have hstart : (Loop.start d₀ now).Consistent (accounts storage ht hs d₀) .empty :=
    Loop.start_consistent (delivers_start t _ d₀)
  obtain ⟨k, hk, hrows⟩ := Loop.after_consistent (p := p) events hstart
  replace hk : l.Consistent (accounts storage ht hs d₀) k := hk
  replace hrows : k.rows = written := hrows
  have hheld : Delivers t (settingOr storage "codec" "null") d₀ d k ∧
      buffer = k.pending.map Prod.snd := by
    cases hw : l.coordinator.writer with
    | some w =>
      have hopened := hk.booked.coordinator.opened hw
      refine ⟨hopened.delivers, ?_⟩
      rw [← hopened.buffer]
      simp [buffer, hw]
    | none =>
      have hclosed := hk.booked.coordinator.closed hw
      refine ⟨hclosed.1, ?_⟩
      rw [hclosed.2]
      simp [buffer, hw]
  obtain ⟨⟨commits, hgrown, hcommitted, hcommits⟩, hbuffer⟩ := hheld
  have hcount : commits.length = l.coordinator.totals.commits :=
    hcommits.trans hk.booked.coordinator.commits.symm
  refine ⟨commits, hgrown.listed, hgrown.onDisk, ?_, ?_, ?_, ?_, fun hrunning => ?_⟩
  · rw [hcommitted, hbuffer, ← List.map_append, ← hrows]
    rfl
  · exact Loop.delivered_sublist events (Loop.start d₀ now)
  · rw [← hrows]
    exact hk.booked.written.symm
  · rw [← hcount]
    exact hgrown.next
  · rw [hbuffer, List.length_map]
    exact (hk.sound hrunning).window.symm

/-- Settings of a table on disk. -/
def ordersStorage : List (Value × Value) :=
  [Value.entry "type" (.str "avro_lake"), Value.entry "table" (.str "orders")]

/-- An order of one field. -/
def order : Record where
  descriptor := some ("\x7b\"type\":\"record\",\"name\":\"Order\"," ++
    "\"fields\":[\x7b\"name\":\"id\",\"type\":\"long\"\x7d]\x7d")
  encoding := .binary
  payload := Value.ofFields [("id", .int 1)]
  id := .str "a"

/-- Settings that commit each row by itself. -/
def oneByOne : Settings := { Settings.default with maxRecordsPerCommit := .int 1 }

/-- An order that was put into the queue and taken out of it is in the table. -/
theorem order_delivered : ∃ t p, tableOf ordersStorage = .ok t ∧ t.IsStraight ∧
    Plan.ofSettings oneByOne = .ok p ∧
    let l := Loop.after p (backend ordersStorage) [.put order, .iterate (.still .zero) .zero]
      (Loop.start .empty .zero)
    ∃ commits : List Commit,
      t.versions l.coordinator.world = (t.versions .empty).map (· ++ commits.map Commit.entry) ∧
      (∀ c ∈ commits, c.OnDisk t (settingOr ordersStorage "codec" "null") l.coordinator.world) ∧
      (commits.map Commit.rows).flatten.length = 1 := by
  have hrun : Except.passes (fun t => decide t.IsStraight && Except.passes (fun p =>
      let l := Loop.after p (backend ordersStorage) [.put order, .iterate (.still .zero) .zero]
        (Loop.start .empty .zero)
      l.coordinator.totals.written = 1 ∧ l.running = true ∧ l.window.records = 0)
      (Plan.ofSettings oneByOne)) (tableOf ordersStorage) = true := by
    decide +kernel
  obtain ⟨t, ht, hrun⟩ := Except.of_passes hrun
  obtain ⟨hs, hrun⟩ := Bool.and_eq_true_iff.mp hrun
  replace hs : t.IsStraight := of_decide_eq_true hs
  obtain ⟨p, hp, hrun⟩ := Except.of_passes hrun
  obtain ⟨hwritten, hrunning, hwindow⟩ := of_decide_eq_true hrun
  obtain ⟨commits, hversions, honDisk, hrows, -, hcount, -, hbuffer⟩ :=
    rows_delivered_in_order ordersStorage t ht hs p [.put order, .iterate (.still .zero) .zero]
      .empty .zero
  refine ⟨t, p, ht, hs, hp, commits, hversions, honDisk, ?_⟩
  have hlength := congrArg List.length hrows
  rw [List.length_append, hbuffer hrunning, hwindow, List.length_map, hcount, hwritten] at hlength
  exact hlength

end Store
end StreamTable
