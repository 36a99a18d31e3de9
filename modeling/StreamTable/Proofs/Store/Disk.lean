/-
What file operations change.  Paths are compared by the place that they lead to, so what stands at
a place is changed only by an operation on a path to it, whatever that operation comes to: done,
refused or torn.
-/
import Mathlib.Data.List.Induction
import StreamTable.Store.Disk

namespace StreamTable
namespace Store

/-! ## Places -/

namespace Path

theorem straighten_concat {names : List String} {name : String} (h : name ≠ "..") :
    straighten (names ++ [name]) = straighten names ++ [name] := by
  simp [straighten, List.foldl_append, h]

/-- Names without a step up stay as they are. -/
theorem straighten_of_notMem {names : List String} (h : ".." ∉ names) :
    straighten names = names := by
  induction names using List.reverseRecOn with
  | nil => rfl
  | append_singleton names name ih =>
    simp only [List.mem_append, List.mem_singleton, not_or] at h
    rw [straighten_concat (Ne.symm h.2), ih h.1]

theorem normal_of_notMem {p : Path} (h : ".." ∉ p.names) : p.normal = p := by
  rw [normal, straighten_of_notMem h]

/-- What is on the way to a path has the first of its names. -/
theorem names_prefix_of_mem_way {p q : Path} (h : q ∈ p.way) : q.names <+: p.names := by
  obtain ⟨n, -, rfl⟩ := List.mem_map.mp h
  exact List.take_prefix _ _

theorem normal_child {p : Path} {name : String} (h : name ≠ "..") :
    (p.child name).normal = p.normal.child name := by
  simp only [normal, child, straighten_concat h]

theorem child_inj {p q : Path} {m n : String} (h : p.child m = q.child n) : p = q ∧ m = n := by
  obtain ⟨a, xs⟩ := p
  obtain ⟨b, ys⟩ := q
  obtain ⟨rfl, hnames⟩ := Path.mk.inj h
  obtain ⟨rfl, hlast⟩ := List.append_inj' hnames rfl
  exact ⟨rfl, List.singleton_inj.mp hlast⟩

theorem child_names_ne_nil (p : Path) (name : String) : (p.child name).names ≠ [] := by
  simp [child]

end Path

namespace Disk

variable {d d' : Disk} {p q : Path} {c : Content}

theorem find?_remove_same (d : Disk) (p : Path) :
    ((d.remove p).entries.find? fun e => decide (e.1 = p.normal)) = none := by
  rw [List.find?_eq_none]
  intro e he
  simpa using (List.mem_filter.mp he).2

theorem content?_remove_same (d : Disk) (hp : p.normal.names ≠ []) :
    (d.remove p).content? p = none := by
  simp only [content?, List.isEmpty_eq_false_iff.mpr hp, Bool.false_eq_true, if_false,
    find?_remove_same]
  rfl

theorem content?_put_same (d : Disk) (c : Content) (h : q.normal = p.normal)
    (hp : p.normal.names ≠ []) : (d.put p c).content? q = some c := by
  simp only [content?, h, List.isEmpty_eq_false_iff.mpr hp, Bool.false_eq_true, if_false]
  show (((d.remove p).entries ++ [(p.normal, c)]).find? fun e => decide (e.1 = p.normal)).map _ = _
  rw [List.find?_append, find?_remove_same]
  simp

theorem content?_remove_other (d : Disk) (h : q.normal ≠ p.normal) :
    (d.remove p).content? q = d.content? q := by
  have hfind : ((d.remove p).entries.find? fun e => decide (e.1 = q.normal)) =
      d.entries.find? fun e => decide (e.1 = q.normal) := by
    show ((d.entries.filter fun e => decide (e.1 ≠ p.normal)).find? _) = _
    rw [List.find?_filter]
    congr 1
    funext e
    by_cases he : e.1 = q.normal
    · simp [he, h]
    · simp [he]
  simp only [content?, hfind]

theorem content?_put_other (d : Disk) (c : Content) (h : q.normal ≠ p.normal) :
    (d.put p c).content? q = d.content? q := by
  have hfind : ((d.put p c).entries.find? fun e => decide (e.1 = q.normal)) =
      (d.remove p).entries.find? fun e => decide (e.1 = q.normal) := by
    show (((d.remove p).entries ++ [(p.normal, c)]).find? _) = _
    rw [List.find?_append]
    simp [Ne.symm h]
  rw [← content?_remove_other d h]
  simp only [content?, hfind]

/-- Disks with the same at all places but some. -/
def SameBut (ps : List Path) (d d' : Disk) : Prop :=
  ∀ q, (∀ p ∈ ps, q.normal ≠ p.normal) → d'.content? q = d.content? q

theorem SameBut.refl (ps : List Path) (d : Disk) : SameBut ps d d := fun _ _ => rfl

theorem SameBut.trans {ps : List Path} {d₁ d₂ d₃ : Disk} (h : SameBut ps d₁ d₂)
    (h' : SameBut ps d₂ d₃) : SameBut ps d₁ d₃ :=
  fun q hq => (h' q hq).trans (h q hq)

theorem SameBut.mono {ps qs : List Path} (h : SameBut ps d d') (hs : ps ⊆ qs) :
    SameBut qs d d' :=
  fun q hq => h q fun p hp => hq p (hs hp)

theorem sameBut_put (d : Disk) (p : Path) (c : Content) : SameBut [p] d (d.put p c) :=
  fun _ hq => content?_put_other d c (hq p (List.mem_singleton_self p))

theorem sameBut_remove (d : Disk) (p : Path) : SameBut [p] d (d.remove p) :=
  fun _ hq => content?_remove_other d (hq p (List.mem_singleton_self p))

/-- Making folders changes nothing but the places where they were missing. -/
theorem makeAll_sameBut (ps : List Path) {d d' : Disk} (h : d.makeAll ps = .ok d') :
    SameBut ps d d' := by
  induction ps generalizing d with
  | nil =>
    cases h
    exact SameBut.refl [] _
  | cons p ps ih =>
    rw [makeAll] at h
    cases hc : d.content? p with
    | none =>
      rw [hc] at h
      exact ((sameBut_put d p .folder).mono (by simp)).trans
        ((ih h).mono (List.subset_cons_self p ps))
    | some c =>
      rw [hc] at h
      cases c with
      | folder => exact (ih h).mono (List.subset_cons_self p ps)
      | _ => cases h

end Disk

/-! ## Operations -/

namespace FileOp

variable {op : FileOp} {d : Disk}

/-- The paths that an operation is about. -/
def paths : FileOp → List Path
  | .write p _ => [p]
  | .rename source target => [source, target]
  | .delete p => [p]

theorem carryOut?_sameBut {d' : Disk} (h : op.carryOut? d = some d') :
    Disk.SameBut op.paths d d' := by
  cases op with
  | write p c =>
    simp only [carryOut?, Option.ite_none_right_eq_some, Option.some.injEq] at h
    exact h.2 ▸ Disk.sameBut_put d p c
  | rename source target =>
    rw [carryOut?] at h
    cases hc : d.content? source with
    | none => rw [hc] at h; cases h
    | some c =>
      rw [hc] at h
      simp only [Option.ite_none_right_eq_some, Option.some.injEq] at h
      rw [← h.2]
      exact ((Disk.sameBut_remove d source).mono (by simp [paths])).trans
        ((Disk.sameBut_put _ target c).mono (by simp [paths]))
  | delete p =>
    simp only [carryOut?, Option.ite_none_right_eq_some, Option.some.injEq] at h
    exact h.2 ▸ Disk.sameBut_remove d p

theorem tear_sameBut (op : FileOp) (d : Disk) : Disk.SameBut op.paths d (op.tear d) := by
  cases op with
  | write p c =>
    rw [tear]
    by_cases hc : d.canHold p = true
    · rw [if_pos hc]
      exact Disk.sameBut_put d p _
    · rw [if_neg hc]
      exact Disk.SameBut.refl _ d
  | rename source target => exact Disk.SameBut.refl _ d
  | delete p => exact Disk.SameBut.refl _ d

/-- Whatever an operation comes to, it changes nothing at other places. -/
theorem perform_sameBut (op : FileOp) (d : Disk) : Disk.SameBut op.paths d (op.perform d).2 := by
  have hrest : Disk.SameBut op.paths d { d with faults := d.faults.tail } := fun _ _ => rfl
  rw [perform]
  cases d.faults.headD .none with
  | refused => exact hrest
  | torn => exact hrest.trans (tear_sameBut op _)
  | none =>
    dsimp only
    cases hc : op.carryOut? { d with faults := d.faults.tail } with
    | some d' => exact hrest.trans (carryOut?_sameBut hc)
    | none => exact hrest

theorem performAll_sameBut (ops : List FileOp) (d : Disk) :
    Disk.SameBut (ops.flatMap paths) d (performAll ops d).2 := by
  induction ops generalizing d with
  | nil => exact Disk.SameBut.refl _ d
  | cons op rest ih =>
    have hop := (perform_sameBut op d).mono (List.subset_append_left op.paths (rest.flatMap paths))
    rw [performAll, List.flatMap_cons]
    rcases hp : op.perform d with ⟨_ | _, d'⟩
    · rw [hp] at hop
      exact hop
    · rw [hp] at hop
      exact hop.trans ((ih d').mono (List.subset_append_right _ _))

theorem carryOut?_of_perform {d' : Disk} (h : op.perform d = (true, d')) :
    op.carryOut? { d with faults := d.faults.tail } = some d' := by
  rw [perform] at h
  cases hf : d.faults.headD .none with
  | refused => rw [hf] at h; cases h
  | torn => rw [hf] at h; cases h
  | none =>
    rw [hf] at h
    dsimp only at h
    cases hc : op.carryOut? { d with faults := d.faults.tail } with
    | none => rw [hc] at h; cases h
    | some d₁ =>
      rw [hc] at h
      exact congrArg some (congrArg Prod.snd h)

/-- A file that is not moved stays, and so does what is at the path it should be moved to. -/
theorem rename_failed {source target : Path} {d' : Disk}
    (h : (FileOp.rename source target).perform d = (false, d')) : Disk.SameBut [] d d' := by
  have hrest : Disk.SameBut [] d { d with faults := d.faults.tail } := fun _ _ => rfl
  rw [perform] at h
  cases hf : d.faults.headD .none with
  | refused =>
    rw [hf] at h
    cases h
    exact hrest
  | torn =>
    rw [hf] at h
    cases h
    exact hrest
  | none =>
    rw [hf] at h
    dsimp only at h
    cases hc : (FileOp.rename source target).carryOut? { d with faults := d.faults.tail } with
    | some d₁ => rw [hc] at h; cases h
    | none =>
      rw [hc] at h
      cases h
      exact hrest

/-- A file that could not be replaced is as it was. -/
theorem replace_failed {draft final : Path} {c : Content}
    (h : (performAll [.write draft c, .rename draft final] d).1 = false) :
    Disk.SameBut [draft] d (performAll [.write draft c, .rename draft final] d).2 := by
  have hwrite := perform_sameBut (.write draft c) d
  rw [performAll] at h ⊢
  rcases hw : (FileOp.write draft c).perform d with ⟨_ | _, d₁⟩
  · rw [hw] at hwrite
    exact hwrite
  · rw [hw] at h hwrite
    dsimp only at h ⊢
    rw [performAll] at h ⊢
    rcases hr : (FileOp.rename draft final).perform d₁ with ⟨_ | _, d₂⟩
    · exact hwrite.trans ((rename_failed hr).mono (List.nil_subset _))
    · rw [hr] at h
      cases h

/-- A file that was written under one path and moved to another stands there. -/
theorem content?_of_replace {draft final : Path} {c : Content}
    (hdraft : draft.normal.names ≠ []) (hfinal : final.normal.names ≠ [])
    (h : (performAll [.write draft c, .rename draft final] d).1 = true) :
    (performAll [.write draft c, .rename draft final] d).2.content? final = some c := by
  rw [performAll] at h ⊢
  rcases hw : (FileOp.write draft c).perform d with ⟨_ | _, d₁⟩
  · rw [hw] at h
    cases h
  · rw [hw] at h
    dsimp only at h ⊢
    rw [performAll] at h ⊢
    rcases hr : (FileOp.rename draft final).perform d₁ with ⟨_ | _, d₂⟩
    · rw [hr] at h
      cases h
    · have hd₁ : d₁.content? draft = some c := by
        have hw' := carryOut?_of_perform hw
        simp only [carryOut?, Option.ite_none_right_eq_some, Option.some.injEq] at hw'
        rw [← hw'.2]
        exact Disk.content?_put_same _ c rfl hdraft
      have hr' := carryOut?_of_perform hr
      have hd₁' : Disk.content? { d₁ with faults := d₁.faults.tail } draft = some c := hd₁
      simp only [carryOut?, hd₁', Option.ite_none_right_eq_some, Option.some.injEq] at hr'
      show d₂.content? final = some c
      rw [← hr'.2]
      exact Disk.content?_put_same _ c rfl hfinal

end FileOp
end Store
end StreamTable
