/-
What an exit status of zero says, however the worker got on beside the program.  The rows of all
records that are reported as written are then in data files that the manifest lists, with one
exception: rows that were still pending at the end and that the closing writer could not commit are
given up, which only the log tells.
-/
import StreamTable.CommandLine.Run
import StreamTable.Proofs.CommandLine.Program
import StreamTable.Proofs.Store.Closing

namespace StreamTable
namespace CommandLine

open StreamTable.Action

/-! ## Settings -/

theorem warnOfUnknown_state (keys : List Value) :
    (Settings.warnOfUnknown keys : Action State Unit).Preserves id := by
  refine preserves_ite ?_ (preserves_pure ())
  exact Preserves.bind (preserves_lift _) fun _ => preserves_log _

theorem ofMapping_state (data : Value) :
    (Settings.ofMapping data : Action State Settings).Preserves id := by
  refine Preserves.bind (preserves_lift _) fun keys =>
    Preserves.bind (warnOfUnknown_state keys) fun _ => ?_
  cases data with
  | map es => exact Preserves.bind (preserves_lift _) fun _ => preserves_pure _
  | _ => exact preserves_fail _

theorem ofText_state (text : String) :
    (Settings.ofText text : Action State Settings).Preserves id := by
  unfold Settings.ofText
  cases Yaml.read text with
  | error fault =>
    cases fault with
    | malformed => exact preserves_fail _
    | data fault => exact preserves_fail _
  | ok root =>
    refine preserves_ite (ofMapping_state _) ?_
    cases root with
    | map es => exact ofMapping_state _
    | _ => exact preserves_fail _

/-- Looking for settings changes nothing. -/
theorem settings_state (host : Host) (o : Options) : (settings? host o).Preserves id := by
  have hload : (Settings.load (sourceOf host o) host.environment : Action State Settings).Preserves
      id := by
    have hcheck (s : Settings) : (Action.lift (s.withEnvironment host.environment) >>= fun s =>
        Action.lift s.validate >>= fun _ => Pure.pure s : Action State Settings).Preserves id :=
      Preserves.bind (preserves_lift _) fun s =>
        Preserves.bind (preserves_lift _) fun _ => preserves_pure s
    unfold Settings.load
    cases sourceOf host o with
    | usual => exact hcheck _
    | file content =>
      exact Preserves.bind (preserves_lift _) fun text =>
        Preserves.bind (ofText_state text) hcheck
  have hattempt : (Settings.load (sourceOf host o) host.environment : Action State
      Settings).attempt.Preserves id := hload
  refine Preserves.bind hattempt fun result => ?_
  cases result with
  | ok s => exact preserves_pure _
  | error f =>
    refine preserves_ite (preserves_fail f) ?_
    exact Preserves.bind (preserves_log _) fun _ => preserves_pure _

/-! ## The whole run -/

theorem run_print (lines : List String) (st : State) :
    (lines.forM print).run st = ⟨.ok (), { st with output := st.output ++ lines }, []⟩ := by
  induction lines generalizing st with
  | nil => rw [List.append_nil]; rfl
  | cons line lines ih =>
    show (print line >>= fun _ => lines.forM print).run st = _
    rw [run_bind_of_ok (show (print line).run st = _ from rfl), ih]
    simp

/-- What has happened if a delivery ends with zero: all of the input was read and offered, and the
loop that came of it was closed without a failure. -/
theorem deliver_zero {host : Host} {turns : List Turn} {o : Options} {s : Settings} {st : State}
    (h : ((deliver host turns o s).run st).result = .ok (some 0)) :
    ∃ fieldName bytes t p l, FieldName.resolve s.overrideFieldName = .ok fieldName ∧
      host.read o.input = .ok bytes ∧ (Feed.ofBytes fieldName bytes).failure? = none ∧
      Store.tableOf s.storage = .ok t ∧ Plan.ofSettings s = .ok p ∧
      let b := Store.backend s.storage
      let closing := (Loop.close b).run l
      let e := (deliver host turns o s).run st
      Loop.Leads p b (Feed.ofBytes fieldName bytes).records (Loop.start st.disk host.now) l ∧
      closing.result = .ok () ∧ e.state.disk = closing.state.coordinator.world ∧
      (∃ d version, d.threads.loop = closing.state ∧
        d.offered = (Feed.ofBytes fieldName bytes).records.length ∧
        e.state.output = st.output ++ report d version) ∧
      ∀ entry ∈ closing.log, entry ∈ e.log := by
  obtain ⟨fieldName, hfield, hrun₁⟩ := ok_of_lift_bind h
  rw [deliver, hrun₁] at h ⊢
  obtain ⟨⟨⟩, -, hrun₂⟩ := ok_of_lift_bind h
  rw [hrun₂, run_bind_of_ok (run_get st)] at h ⊢
  obtain ⟨session, hsession, hrun₃⟩ := ok_of_lift_bind h
  dsimp only at h ⊢
  rw [hrun₃] at h ⊢
  clear hrun₁ hrun₂ hrun₃
  obtain ⟨p, hp, hstart⟩ := Except.of_bind_ok hsession
  obtain rfl := Except.ok.inj hstart
  dsimp only at h ⊢
  have hstart := Program.underway_start (b := Store.backend s.storage)
    ⟨p, s.queueSize, .start st.disk host.now, none⟩ rfl rfl turns
  match hrun : (Program.deliverAndClose (Store.backend s.storage) o.drainTimeout
      (feedOf host fieldName o.input)).run.run
        ⟨.start ⟨p, s.queueSize, .start st.disk host.now, none⟩, 0, turns⟩ with
  | ⟨.error f, d, log⟩ =>
    rw [run_bind_of_error (run_focus_of (fun _ => _) _ st hrun)] at h
    cases h
  | ⟨.ok none, d, log⟩ =>
    rw [run_bind_of_ok (run_focus_of (fun _ => _) _ st hrun)] at h
    cases h
  | ⟨.ok (some (drained, d)), d', log⟩ =>
    rw [run_bind_of_ok (run_focus_of (fun _ => _) _ st hrun)] at h ⊢
    dsimp only at h ⊢
    rw [run_bind_of_ok (run_get _)] at h ⊢
    obtain ⟨version, hversion, hrun'⟩ := ok_of_lift_bind h
    rw [hrun', run_bind_of_ok (run_print _ _), run_pure] at h ⊢
    obtain rfl : drained = true := by
      have hzero := Option.some.inj (Except.ok.inj h)
      cases drained with
      | true => rfl
      | false => exact absurd hzero (by simp)
    obtain ⟨rfl, hread, l, hclosed⟩ := hstart.deliverAndClose hrun
    obtain ⟨t, ht, -⟩ := Except.of_bind_ok hversion
    rw [feedOf] at hclosed hread
    cases hbytes : host.read o.input with
    | error fault =>
      rw [hbytes] at hread
      cases hread
    | ok bytes =>
      rw [hbytes] at hclosed hread
      have hoffered := hclosed.offered
      rw [Nat.zero_add] at hoffered
      exact ⟨fieldName, bytes, t, p, l, hfield, rfl, hread, ht, hp, hclosed.leads, hclosed.result,
        congrArg (fun l : Loop _ _ => l.coordinator.world) hclosed.loop,
        ⟨d, version, hclosed.loop, hoffered, rfl⟩,
        fun entry he => List.mem_append_right [] (List.mem_append_left _ (hclosed.log entry he))⟩

/-- The settings that a run goes by, if they are valid. -/
def settingsOf (host : Host) (o : Options) (st : State) : Except Failure (Option Settings) :=
  (((settings? host o).run st).result).map
    (Option.map fun s => override "base_dir" o.baseDir (override "table" o.table s))

theorem run_of_options (host : Host) (turns : List Turn) {args : List String} {o : Options}
    (h : Options.ofWords args = .ok o) :
    run host turns args = (do
      match ← settings? host o with
      | none => return some 2
      | some s =>
        deliver host turns o (override "base_dir" o.baseDir (override "table" o.table s))) := by
  unfold run
  split
  · rename_i hwords
    rw [h] at hwords
    cases hwords
  · rename_i hwords
    rw [h] at hwords
    cases hwords
  · rename_i hwords
    rw [h] at hwords
    cases hwords
    rfl

/-- If a run ends with zero, whatever the worker did in the pauses, the whole input was read and its
records were offered.  If no name on the way to the table is a step up, each record that is reported
as written has its row in a data file that the manifest lists, in order, with one exception: rows
that were pending in the end and that the closing writer could not commit are missing, and then the
log says that they are given up. -/
theorem exit_zero_covers_written (host : Host) (turns : List Turn) (args : List String)
    (o : Options) (st : State) (hargs : Options.ofWords args = .ok o)
    (hzero : ((run host turns args).run st).result = .ok (some 0)) :
    let e := (run host turns args).run st
    ∃ s fieldName bytes t p events,
      settingsOf host o st = .ok (some s) ∧ FieldName.resolve s.overrideFieldName = .ok fieldName ∧
      Store.tableOf s.storage = .ok t ∧ Plan.ofSettings s = .ok p ∧
      host.read o.input = .ok bytes ∧ (Feed.ofBytes fieldName bytes).failure? = none ∧
      Loop.records events = (Feed.ofBytes fieldName bytes).records ∧
      let b := Store.backend s.storage
      let l := Loop.after p b events (Loop.start st.disk host.now)
      let written := Loop.delivered p b events (Loop.start st.disk host.now)
      e.state.disk = ((Loop.close b).run l).state.coordinator.world ∧
      "Records offered:   " ++ toString (Loop.records events).length ∈ e.state.output ∧
      "Records written:   " ++ toString written.length ∈ e.state.output ∧
      (t.IsStraight → ∃ (commits : List Store.Commit) (lost : List Value),
        t.versions e.state.disk = (t.versions st.disk).map (· ++ commits.map Store.Commit.entry) ∧
        (∀ c ∈ commits, c.OnDisk t (Store.settingOr s.storage "codec" "null") e.state.disk) ∧
        (commits.map Store.Commit.rows).flatten ++ lost = written.map Prod.snd ∧
        (lost = [] ↔ ¬Store.IsStranded l) ∧
        (lost ≠ [] → Store.givesUp t lost.length ∈ e.log)) := by
  intro e
  have hrun : e = _ := congrArg (Action.run · st) (run_of_options host turns hargs)
  have hzero' : e.result = .ok (some 0) := hzero
  rw [hrun] at hzero' ⊢
  obtain ⟨found, hfound, hdeliver, hwhole⟩ := ok_of_bind hzero'
  have hstate : ((settings? host o).run st).state = st := settings_state host o st
  rw [hstate] at hdeliver hwhole
  rw [hwhole]
  cases found with
  | none => cases hdeliver
  | some s₀ =>
    have hsettings : settingsOf host o st =
        .ok (some (override "base_dir" o.baseDir (override "table" o.table s₀))) := by
      rw [settingsOf, hfound]
      rfl
    dsimp only at hdeliver ⊢
    generalize override "base_dir" o.baseDir (override "table" o.table s₀) = s at *
    obtain ⟨fieldName, bytes, t, p, l, hfield, hread, hend, ht, hp, ⟨events, hrecords, rfl⟩,
      hclosed, hdisk, ⟨d, version, hloop, hoffered, hout⟩, hlog⟩ := deliver_zero hdeliver
    have hwritten := Store.written_counted s.storage p events st.disk host.now
    have htotals : d.threads.loop.coordinator.totals.written =
        (Loop.delivered p (Store.backend s.storage) events (Loop.start st.disk host.now)).length := by
      rw [hloop, hwritten]
      exact congrArg Totals.written (Loop.close_totals _ _)
    refine ⟨s, fieldName, bytes, t, p, events, hsettings, hfield, ht, hp, hread, hend, hrecords,
      hdisk, ?_, ?_, fun hs => ?_⟩
    · rw [hout, report, hoffered, hrecords]
      simp
    · rw [hout, report, htotals]
      simp
    · obtain ⟨commits, lost, hversions, honDisk, hall, hlost, hgives⟩ :=
        Store.closed_loop_delivers s.storage t ht hs p events st.disk host.now hclosed
      rw [← hdisk] at hversions honDisk
      exact ⟨commits, lost, hversions, honDisk, hall, hlost,
        fun hne => List.mem_append_right _ (hlog _ (hgives hne))⟩

/-- A computer with one file of entries, in which nothing is set. -/
def computer (entries : String) : Host where
  read path := if path = "in.jsonl" then .ok (Text.toUtf8 entries) else .error .missing
  environment := []
  now := .zero

/-- An entry with the plain value 1. -/
def plainOne : String := "\x7b\"encoding\":\"primitive\",\"payload\":1\x7d"

/-- Some turns in which no time passes. -/
def someTurns : List Turn := List.replicate 8 (.steady .zero 2)

/-- A plain value that a run ending with zero wrote is in a data file of the table. -/
theorem plain_value_listed : ∃ o, Options.ofWords ["--input", "in.jsonl"] = .ok o ∧
    let e := (run (computer plainOne) someTurns ["--input", "in.jsonl"]).run (.start .empty)
    e.result = .ok (some 0) ∧ ∃ t codec, ∃ commits : List Store.Commit, t.IsStraight ∧
      commits.length = 1 ∧
      t.versions e.state.disk = (t.versions .empty).map (· ++ commits.map Store.Commit.entry) ∧
      ∀ c ∈ commits, c.OnDisk t codec e.state.disk := by
  let e := (run (computer plainOne) someTurns ["--input", "in.jsonl"]).run (.start .empty)
  let grows (t : Store.Table) : Bool := decide t.IsStraight &&
    (Except.passes List.isEmpty (t.versions .empty) &&
      Except.passes (·.length == 1) (t.versions e.state.disk))
  have hrun : Except.passes (fun o => Except.passes (· == some 0) e.result &&
      Except.passes (Option.any fun s => Except.passes grows (Store.tableOf s.storage))
        (settingsOf (computer plainOne) o (.start .empty)))
      (Options.ofWords ["--input", "in.jsonl"]) = true := by
    decide +kernel
  obtain ⟨o, ho, hrun⟩ := Except.of_passes hrun
  rw [Bool.and_eq_true] at hrun
  obtain ⟨n, hn, hzero⟩ := Except.of_passes hrun.1
  obtain rfl : n = some 0 := by simpa using hzero
  obtain ⟨s, fieldName, bytes, t, p, events, hs, -, ht, -, -, -, -, -, -, -, hlisted⟩ :=
    exit_zero_covers_written (computer plainOne) someTurns _ o (.start .empty) ho hn
  have hgrows : grows t = true := by
    have hfound := hrun.2
    rw [hs, Except.passes, Option.any_some, ht] at hfound
    exact hfound
  rw [Bool.and_eq_true, Bool.and_eq_true] at hgrows
  obtain ⟨hstraight, hempty, hlength⟩ := hgrows
  replace hstraight : t.IsStraight := of_decide_eq_true hstraight
  obtain ⟨commits, lost, hversions, honDisk, -⟩ := hlisted hstraight
  obtain ⟨before, hbefore, hempty⟩ := Except.of_passes hempty
  obtain ⟨versions, hafter, hlength⟩ := Except.of_passes hlength
  refine ⟨o, ho, hn, t, _, commits, hstraight, ?_, hversions, honDisk⟩
  have hbefore' : t.versions (State.start .empty).disk = .ok [] :=
    hbefore.trans (congrArg Except.ok (List.isEmpty_iff.mp hempty))
  rw [hafter, hbefore'] at hversions
  obtain rfl : versions = commits.map Store.Commit.entry := Except.ok.inj hversions
  simpa using hlength

/-- A run with the table named so ends with zero and reports one record as written, and there is no
version in the table. -/
def Misses (table : String) (disk : Store.Disk) : Prop :=
  let e := (run (computer plainOne) someTurns
    ["--input", "in.jsonl", "--base-dir", "lake", "--table", table]).run (.start disk)
  Except.passes (· == some 0) e.result ∧ "Records written:   1" ∈ e.state.output ∧
    Except.passes List.isEmpty (Store.Table.versions ⟨.ofText "lake", table⟩ e.state.disk)

instance (table : String) (disk : Store.Disk) : Decidable (Misses table disk) :=
  inferInstanceAs (Decidable (_ ∧ _ ∧ _))

/-- A record that is reported as written is missing after a run that ends with zero: if the name of
the table leads through the place of its manifest's draft, which so becomes a folder, no commit of
the table can be done; and for any other table the only commit fails if the second file operation is
refused, which is to write the manifest's draft. -/
theorem written_record_missing : Misses "t/._manifest.json.tmp/.." .empty ∧
    Store.Table.IsStraight ⟨.ofText "lake", "t"⟩ ∧
    Misses "t" { Store.Disk.empty with faults := [.none, .refused] } := by
  decide +kernel

end CommandLine
end StreamTable
