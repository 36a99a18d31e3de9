/-
Actions that mirror each other.  One action runs on states, another on what a view shows of them.
If the two mirror each other, the second comes to what the view shows of the first, and logs the
same, so whatever the view leaves out has no bearing on the run.
-/
import StreamTable.Action

namespace StreamTable
namespace Action

variable {σ σ' τ τ' α α' β β' : Type} {view : σ → σ'} {g : α → α'} {h : β → β'}

/-- `a'` does with what `view` shows of a state what `a` does with the state, and `g` shows of its
result what `a'` answers. -/
def Mirrors (view : σ → σ') (g : α → α') (a : Action σ α) (a' : Action σ' α') : Prop :=
  ∀ s, a'.run (view s) = ⟨(a.run s).result.map g, view (a.run s).state, (a.run s).log⟩

theorem mirrors_pure {x : α} {x' : α'} (hx : x' = g x) :
    Mirrors view g (Pure.pure x) (Pure.pure x') := by
  intro s
  rw [hx]
  rfl

theorem mirrors_fail (f : Failure) : Mirrors view g (fail f) (fail f) := fun _ => rfl

theorem mirrors_get : Mirrors view view get get := fun _ => rfl

theorem mirrors_log (e : Log.Entry) : Mirrors view id (log e) (log e) := fun _ => rfl

theorem mirrors_lift (r : Except Failure α) : Mirrors view id (lift r) (lift r) := by
  intro s
  cases r <;> rfl

theorem mirrors_modify {f : σ → σ} {f' : σ' → σ'} (hf : ∀ s, f' (view s) = view (f s)) :
    Mirrors view id (modify f) (modify f') := by
  intro s
  rw [run_modify, hf]
  rfl

theorem Mirrors.attempt {a : Action σ α} {a' : Action σ' α'} (ha : Mirrors view g a a') :
    Mirrors view (Except.map g) a.attempt a'.attempt := by
  intro s
  rw [run_attempt, run_attempt, ha s]
  rfl

theorem Mirrors.bind {a : Action σ α} {a' : Action σ' α'} {f : α → Action σ β}
    {f' : α' → Action σ' β'} (ha : Mirrors view g a a')
    (hf : ∀ x, Mirrors view h (f x) (f' (g x))) : Mirrors view h (a >>= f) (a' >>= f') := by
  intro s
  have hs := ha s
  rcases hr : a.run s with ⟨e | x, t, log⟩
  · rw [hr] at hs
    rw [run_bind_of_error hs, run_bind_of_error hr]
    rfl
  · rw [hr] at hs
    rw [run_bind_of_ok hs, run_bind_of_ok hr, hf x t]

/-- Actions on parts mirror each other if the parts do. -/
theorem Mirrors.focus {part : σ → τ} {update : τ → σ → σ} {part' : σ' → τ'}
    {update' : τ' → σ' → σ'} {viewPart : τ → τ'} {a : Action τ α} {a' : Action τ' α'}
    (ha : Mirrors viewPart g a a') (hpart : ∀ s, part' (view s) = viewPart (part s))
    (hupdate : ∀ t s, update' (viewPart t) (view s) = view (update t s)) :
    Mirrors view g (a.focus part update) (a'.focus part' update') := by
  intro s
  rw [run_focus, run_focus, hpart, ha (part s), hupdate]

theorem mirrors_ite {c : Prop} [Decidable c] {a b : Action σ α} {a' b' : Action σ' α'}
    (ha : Mirrors view g a a') (hb : Mirrors view g b b') :
    Mirrors view g (if c then a else b) (if c then a' else b') := by
  by_cases hc : c
  · rw [if_pos hc, if_pos hc]
    exact ha
  · rw [if_neg hc, if_neg hc]
    exact hb

end Action
end StreamTable
