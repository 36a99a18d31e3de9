/-
How actions end.  `a.Ends s Q E` says of the one run of `a` from the state `s` that its result and
its state have `Q` if it succeeds, and that its failure and its state have `E` if it does not.

There is one rule for each way to build an action, and each is an equivalence, so what has to hold
before a run is worked out from what is wanted after it.  The calls that are left are dealt with by
what is known of them, through `Ends.mono`.
-/
import StreamTable.Action

namespace StreamTable

/-- A result that was not an error before its errors were renamed. -/
theorem Except.ok_of_mapError {ε ε' α : Type} {f : ε → ε'} {r : Except ε α} {x : α}
    (h : r.mapError f = .ok x) : r = .ok x := by
  cases r with
  | ok y => exact congrArg Except.ok (Except.ok.inj h)
  | error e => cases h

/-- A result that was reached in two steps. -/
theorem Except.of_bind_ok {ε α β : Type} {r : Except ε α} {f : α → Except ε β} {y : β}
    (h : (r >>= f) = .ok y) : ∃ x, r = .ok x ∧ f x = .ok y := by
  cases r with
  | ok x => exact ⟨x, rfl, h⟩
  | error e => cases h

theorem Except.of_bind_error {ε α β : Type} {r : Except ε α} {f : α → Except ε β} {e : ε}
    (h : (r >>= f) = .error e) : r = .error e ∨ ∃ x, r = .ok x ∧ f x = .error e := by
  cases r with
  | ok x => exact .inr ⟨x, rfl, h⟩
  | error e' =>
    cases h
    exact .inl rfl

/-- Whether there is a result, and it passes a test. -/
def Except.passes {ε α : Type} (test : α → Bool) : Except ε α → Bool
  | .ok x => test x
  | .error _ => false

theorem Except.of_passes {ε α : Type} {test : α → Bool} {r : Except ε α}
    (h : Except.passes test r = true) : ∃ x, r = .ok x ∧ test x = true := by
  cases r with
  | ok x => exact ⟨x, rfl, h⟩
  | error e => cases h

namespace Action

variable {σ τ α β : Type}

/-- What holds when a run of an action from a state is over, whether it succeeds or fails. -/
def Ends (a : Action σ α) (s : σ) (Q : α → σ → Prop) (E : Failure → σ → Prop) : Prop :=
  match (a.run s).result with
  | .ok x => Q x (a.run s).state
  | .error f => E f (a.run s).state

section Rules

variable {s : σ} {Q : α → σ → Prop} {E : Failure → σ → Prop}

@[simp]
theorem ends_pure (x : α) : (Pure.pure x : Action σ α).Ends s Q E ↔ Q x s := Iff.rfl

@[simp]
theorem ends_fail (f : Failure) : (fail f : Action σ α).Ends s Q E ↔ E f s := Iff.rfl

@[simp]
theorem ends_get {Q : σ → σ → Prop} : (get : Action σ σ).Ends s Q E ↔ Q s s := Iff.rfl

@[simp]
theorem ends_modify (f : σ → σ) {Q : Unit → σ → Prop} :
    (modify f).Ends s Q E ↔ Q () (f s) := Iff.rfl

@[simp]
theorem ends_log (e : Log.Entry) {Q : Unit → σ → Prop} :
    (log e).Ends s Q E ↔ Q () s := Iff.rfl

theorem ends_lift (r : Except Failure α) :
    (lift r).Ends s Q E ↔ (∀ x, r = .ok x → Q x s) ∧ (∀ f, r = .error f → E f s) := by
  cases r with
  | ok x =>
    constructor
    · intro h
      exact ⟨fun y hy => Except.ok.inj hy ▸ h, fun f hf => by cases hf⟩
    · intro h
      exact h.1 x rfl
  | error f =>
    constructor
    · intro h
      exact ⟨fun y hy => (by cases hy), fun g hg => Except.error.inj hg ▸ h⟩
    · intro h
      exact h.2 f rfl

@[simp]
theorem ends_lift_ok (x : α) : (lift (.ok x) : Action σ α).Ends s Q E ↔ Q x s := Iff.rfl

@[simp]
theorem ends_lift_error (f : Failure) :
    (lift (.error f) : Action σ α).Ends s Q E ↔ E f s := Iff.rfl

@[simp]
theorem ends_attempt (a : Action σ α) {Q : Except Failure α → σ → Prop} :
    a.attempt.Ends s Q E ↔ a.Ends s (fun x t => Q (.ok x) t) (fun f t => Q (.error f) t) := by
  unfold Ends
  rw [run_attempt]
  cases (a.run s).result with
  | ok x => exact Iff.rfl
  | error f => exact Iff.rfl

@[simp]
theorem ends_focus (view : σ → τ) (update : τ → σ → σ) (a : Action τ α) :
    (focus view update a).Ends s Q E ↔
      a.Ends (view s) (fun x t => Q x (update t s)) (fun f t => E f (update t s)) := by
  unfold Ends
  rw [run_focus]

@[simp]
theorem ends_bind (a : Action σ β) (f : β → Action σ α) :
    (a >>= f).Ends s Q E ↔ a.Ends s (fun x t => (f x).Ends t Q E) E := by
  unfold Ends
  rcases h : a.run s with ⟨g | x, t, log⟩
  · rw [run_bind_of_error h]
  · rw [run_bind_of_ok h]

theorem ends_ite (c : Prop) [Decidable c] (a b : Action σ α) :
    (if c then a else b).Ends s Q E ↔ (c → a.Ends s Q E) ∧ (¬c → b.Ends s Q E) := by
  by_cases hc : c
  · simp [hc]
  · simp [hc]

end Rules

/-! ## What follows from how an action ends -/

theorem Ends.mono {a : Action σ α} {s : σ} {Q Q' : α → σ → Prop} {E E' : Failure → σ → Prop}
    (h : a.Ends s Q E) (hQ : ∀ x t, Q x t → Q' x t) (hE : ∀ f t, E f t → E' f t) :
    a.Ends s Q' E' := by
  unfold Ends at h ⊢
  cases hr : (a.run s).result with
  | ok x =>
    rw [hr] at h
    exact hQ x _ h
  | error f =>
    rw [hr] at h
    exact hE f _ h

theorem Ends.of_forall {a : Action σ α} {s : σ} {Q : α → σ → Prop} {E : Failure → σ → Prop}
    (hQ : ∀ x t, Q x t) (hE : ∀ f t, E f t) : a.Ends s Q E := by
  unfold Ends
  cases (a.run s).result with
  | ok x => exact hQ x _
  | error f => exact hE f _

theorem Ends.and {a : Action σ α} {s : σ} {Q Q' : α → σ → Prop} {E E' : Failure → σ → Prop}
    (h : a.Ends s Q E) (h' : a.Ends s Q' E') :
    a.Ends s (fun x t => Q x t ∧ Q' x t) (fun f t => E f t ∧ E' f t) := by
  unfold Ends at h h' ⊢
  cases hr : (a.run s).result with
  | ok x =>
    rw [hr] at h h'
    exact ⟨h, h'⟩
  | error f =>
    rw [hr] at h h'
    exact ⟨h, h'⟩

theorem Ends.ok {a : Action σ α} {s : σ} {Q : α → σ → Prop} {E : Failure → σ → Prop} {x : α}
    (h : a.Ends s Q E) (hx : (a.run s).result = .ok x) : Q x (a.run s).state := by
  unfold Ends at h
  rwa [hx] at h

/-- What holds at both ends of a run holds of the state that it leaves. -/
theorem Ends.state {a : Action σ α} {s : σ} {R : σ → Prop}
    (h : a.Ends s (fun _ t => R t) (fun _ t => R t)) : R (a.run s).state := by
  unfold Ends at h
  cases hr : (a.run s).result with
  | ok x => rwa [hr] at h
  | error f => rwa [hr] at h

/-- What holds at the end that a run comes to holds of its result and of the state that it leaves. -/
theorem Ends.outcome {a : Action σ α} {s : σ} {R : Except Failure α → σ → Prop}
    (h : a.Ends s (fun x t => R (.ok x) t) (fun f t => R (.error f) t)) :
    R (a.run s).result (a.run s).state := by
  unfold Ends at h
  cases hr : (a.run s).result with
  | ok x => rwa [hr] at h
  | error f => rwa [hr] at h

theorem ends_of_state {a : Action σ α} {s : σ} {R : σ → Prop} (h : R (a.run s).state) :
    a.Ends s (fun _ t => R t) (fun _ t => R t) := by
  unfold Ends
  cases (a.run s).result with
  | ok x => exact h
  | error f => exact h

/-- An action goes on from where another one has got to without a word. -/
theorem run_bind_of_quiet {a : Action σ β} {f : β → Action σ α} {s t : σ} {x : β}
    (h : a.run s = ⟨.ok x, t, []⟩) : (a >>= f).run s = (f x).run t :=
  run_bind_of_ok h

/-- A run that succeeds in two steps, taken apart. -/
theorem ok_of_bind {a : Action σ β} {f : β → Action σ α} {s : σ} {y : α}
    (h : ((a >>= f).run s).result = .ok y) :
    ∃ x, (a.run s).result = .ok x ∧ ((f x).run (a.run s).state).result = .ok y ∧
      (a >>= f).run s = ⟨.ok y, ((f x).run (a.run s).state).state,
        (a.run s).log ++ ((f x).run (a.run s).state).log⟩ := by
  rcases ha : a.run s with ⟨e | x, t, log⟩
  · rw [run_bind_of_error ha] at h
    cases h
  · rw [run_bind_of_ok ha] at h ⊢
    exact ⟨x, rfl, h, by rw [← h]⟩

/-- A run that starts with a known result goes on from the same state. -/
theorem ok_of_lift_bind {r : Except Failure β} {f : β → Action σ α} {s : σ} {y : α}
    (h : ((lift r >>= f).run s).result = .ok y) :
    ∃ x, r = .ok x ∧ (lift r >>= f).run s = (f x).run s := by
  cases r with
  | error fault => cases h
  | ok x => exact ⟨x, rfl, rfl⟩

/-- An action on a part whose run is known. -/
theorem run_focus_of (view : σ → τ) (update : τ → σ → σ) (s : σ) {a : Action τ α}
    {r : Except Failure α} {t : τ} {log : List Log.Entry} (h : a.run (view s) = ⟨r, t, log⟩) :
    (focus view update a).run s = ⟨r, update t s, log⟩ := by
  rw [run_focus, h]

/-- An action never fails. -/
def Succeeds (a : Action σ α) : Prop := ∀ s, a.Ends s (fun _ _ => True) fun _ _ => False

end Action
end StreamTable
