/-
Actions whose result does not depend on the state.  `Comes a r` says that `a` comes to `r` from
every state, so that a run is worked out as if there were no state, whatever is logged.
-/
import StreamTable.Action

namespace StreamTable

/-- A failure over data stays one. -/
theorem Failure.data_of_mapError {α : Type} {r : Except DataFault α} {f : Failure}
    (h : r.mapError Failure.data = .error f) : ∃ fault, f = .data fault := by
  cases r with
  | ok x => cases h
  | error fault =>
    cases h
    exact ⟨fault, rfl⟩

namespace Action

variable {σ α β : Type}

def Comes (a : Action σ α) (r : Except Failure α) : Prop := ∀ s, (a.run s).result = r

theorem comes_pure (x : α) : Comes (Pure.pure x : Action σ α) (.ok x) := fun _ => rfl

theorem comes_fail (f : Failure) : Comes (fail f : Action σ α) (.error f) := fun _ => rfl

theorem comes_lift (r : Except Failure α) : Comes (lift r : Action σ α) r := fun _ => rfl

theorem comes_log (e : Log.Entry) : Comes (log e : Action σ Unit) (.ok ()) := fun _ => rfl

/-- A second step that does not look at the state goes on from the result of the first. -/
theorem result_bind {f : α → Action σ β} {g : α → Except Failure β} (hf : ∀ x, Comes (f x) (g x))
    (a : Action σ α) (s : σ) : ((a >>= f).run s).result = (a.run s).result >>= g := by
  rcases hrun : a.run s with ⟨e | x, t, log⟩
  · rw [run_bind_of_error hrun]
    rfl
  · rw [run_bind_of_ok hrun]
    exact hf x t

theorem Comes.bind {a : Action σ α} {f : α → Action σ β} {r : Except Failure α}
    {g : α → Except Failure β} (ha : Comes a r) (hf : ∀ x, Comes (f x) (g x)) :
    Comes (a >>= f) (r >>= g) := by
  intro s
  rw [result_bind hf, ha s]

end Action
end StreamTable
