/-
Results, and lists of them: when there is a result of several steps, or of one step at each element
of a list.
-/
import Mathlib.Data.List.Forall2
import StreamTable.Proofs.Action.Ends

namespace StreamTable
namespace Except

variable {ε α β γ : Type}

theorem bind_isOk_iff {r : Except ε α} {f : α → Except ε β} :
    (∃ y, (r >>= f) = .ok y) ↔ ∃ x, r = .ok x ∧ ∃ y, f x = .ok y := by
  constructor
  · rintro ⟨y, h⟩
    obtain ⟨x, hx, h⟩ := of_bind_ok h
    exact ⟨x, hx, y, h⟩
  · rintro ⟨x, rfl, y, h⟩
    exact ⟨y, h⟩

/-- What is made of a result does not decide whether there is one. -/
theorem map_isOk_iff {r : Except ε α} {f : α → β} :
    (∃ y, (r >>= fun x => Pure.pure (f x)) = .ok y) ↔ ∃ x, r = .ok x := by
  rw [bind_isOk_iff]
  exact ⟨fun ⟨x, hx, _⟩ => ⟨x, hx⟩, fun ⟨x, hx⟩ => ⟨x, hx, f x, rfl⟩⟩

theorem mapM_ok_iff {f : α → Except ε β} {xs : List α} {ys : List β} :
    xs.mapM f = .ok ys ↔ List.Forall₂ (fun x y => f x = .ok y) xs ys := by
  induction xs generalizing ys with
  | nil =>
    rw [List.mapM_nil, List.forall₂_nil_left_iff]
    exact ⟨fun h => (Except.ok.inj h).symm, fun h => congrArg Except.ok h.symm⟩
  | cons x xs ih =>
    rw [List.mapM_cons, List.forall₂_cons_left_iff]
    constructor
    · intro h
      obtain ⟨y, hx, h⟩ := of_bind_ok h
      obtain ⟨zs, hxs, h⟩ := of_bind_ok h
      exact ⟨y, zs, hx, ih.mp hxs, (Except.ok.inj h).symm⟩
    · rintro ⟨y, zs, hx, hxs, rfl⟩
      rw [hx, ih.mpr hxs]
      rfl

theorem length_of_mapM {f : α → Except ε β} {xs : List α} {ys : List β}
    (h : xs.mapM f = .ok ys) : ys.length = xs.length :=
  (mapM_ok_iff.mp h).length_eq.symm

theorem mapM_isOk_iff {f : α → Except ε β} {xs : List α} :
    (∃ ys, xs.mapM f = .ok ys) ↔ ∀ x ∈ xs, ∃ y, f x = .ok y := by
  simp only [mapM_ok_iff]
  induction xs with
  | nil => exact ⟨fun _ => List.forall_mem_nil _, fun _ => ⟨[], .nil⟩⟩
  | cons x xs ih =>
    rw [List.forall_mem_cons, ← ih]
    constructor
    · rintro ⟨_, _ | ⟨hx, hxs⟩⟩
      exact ⟨⟨_, hx⟩, _, hxs⟩
    · rintro ⟨⟨y, hx⟩, ys, hxs⟩
      exact ⟨y :: ys, .cons hx hxs⟩

theorem mapM_congr {f : α → Except ε γ} {g : β → Except ε γ} {xs : List α} {ys : List β}
    (h : List.Forall₂ (fun x y => f x = g y) xs ys) : xs.mapM f = ys.mapM g := by
  induction h with
  | nil => rfl
  | cons hxy _ ih => rw [List.mapM_cons, List.mapM_cons, hxy, ih]

end Except

end StreamTable
