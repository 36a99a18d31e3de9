/-
What actions keep true.  `Maintains R a` says that a state with `R` has `R` after any run of `a`,
whether it succeeds or fails.  An action maintains what all its parts maintain.

`a.EndsIf P s Q E` says how the run of `a` from `s` ends, provided that the state it leaves has `P`.
If the loss of `P` is maintained, such runs can be put together as others are.
-/
import StreamTable.Proofs.Action.Ends

namespace StreamTable
namespace Action

variable {σ τ α β : Type} {R : σ → Prop}

def Maintains (R : σ → Prop) (a : Action σ α) : Prop := ∀ s, R s → R (a.run s).state

theorem maintains_pure (x : α) : Maintains R (Pure.pure x) := fun _ h => h

theorem maintains_fail (f : Failure) : Maintains R (fail f : Action σ α) := fun _ h => h

theorem maintains_get : Maintains R get := fun _ h => h

theorem maintains_lift (r : Except Failure α) : Maintains R (lift r) := fun _ h => h

theorem maintains_modify {f : σ → σ} (h : ∀ s, R s → R (f s)) : Maintains R (modify f) := h

theorem Maintains.bind {a : Action σ α} {f : α → Action σ β} (ha : Maintains R a)
    (hf : ∀ x, Maintains R (f x)) : Maintains R (a >>= f) := by
  intro s h
  have hs := ha s h
  rcases hr : a.run s with ⟨e | x, t, log⟩
  · rw [hr] at hs
    rw [run_bind_of_error hr]
    exact hs
  · rw [hr] at hs
    rw [run_bind_of_ok hr]
    exact hf x t hs

theorem maintains_ite {c : Prop} [Decidable c] {a b : Action σ α} (ha : Maintains R a)
    (hb : Maintains R b) : Maintains R (if c then a else b) := by
  by_cases hc : c
  · rw [if_pos hc]
    exact ha
  · rw [if_neg hc]
    exact hb

/-- An action on a part keeps true what it keeps true of the part. -/
theorem Maintains.focus {part : σ → τ} {update : τ → σ → σ} {T : τ → Prop} {a : Action τ α}
    (ha : Maintains T a) (hpart : ∀ s, R s → T (part s))
    (hupdate : ∀ t s, R s → T t → R (update t s)) : Maintains R (a.focus part update) :=
  fun s h => hupdate _ s h (ha _ (hpart s h))

/-- What holds at both ends of every run from a state with it is maintained. -/
theorem maintains_of_ends {a : Action σ α}
    (h : ∀ s, R s → a.Ends s (fun _ t => R t) (fun _ t => R t)) : Maintains R a :=
  fun s hs => (h s hs).state

theorem Maintains.ends {a : Action σ α} (ha : Maintains R a) {s : σ} (h : R s) :
    a.Ends s (fun _ t => R t) (fun _ t => R t) :=
  ends_of_state (ha s h)

/-! ## Runs that leave a state of a kind -/

section EndsIf

variable {P : σ → Prop} {a : Action σ α} {s : σ} {Q Q' : α → σ → Prop} {E E' : Failure → σ → Prop}

def EndsIf (P : σ → Prop) (a : Action σ α) (s : σ) (Q : α → σ → Prop) (E : Failure → σ → Prop) :
    Prop :=
  a.Ends s (fun x t => P t → Q x t) (fun f t => P t → E f t)

/-- What was lost before is lost in the end. -/
theorem Maintains.endsIf (h : Maintains (fun t => ¬P t) a) (hs : ¬P s) : a.EndsIf P s Q E :=
  (h.ends hs).mono (fun _ _ ht hp => absurd hp ht) fun _ _ ht hp => absurd hp ht

theorem EndsIf.mono (h : a.EndsIf P s Q E) (hQ : ∀ x t, P t → Q x t → Q' x t)
    (hE : ∀ f t, P t → E f t → E' f t) : a.EndsIf P s Q' E' :=
  Ends.mono h (fun x t ht hp => hQ x t hp (ht hp)) fun f t ht hp => hE f t hp (ht hp)

/-- A run goes on from a state that has what is asked for in the end. -/
theorem EndsIf.bind {f : α → Action σ β} {Q' : β → σ → Prop} (ha : a.EndsIf P s Q E)
    (hlost : ∀ x, Maintains (fun t => ¬P t) (f x))
    (hf : ∀ x t, P t → Q x t → (f x).EndsIf P t Q' E) : (a >>= f).EndsIf P s Q' E := by
  rw [EndsIf, ends_bind]
  refine Ends.mono ha (fun x t ht => ?_) fun _ _ h => h
  by_cases hp : P t
  · exact hf x t hp (ht hp)
  · exact (hlost x).endsIf hp

end EndsIf

end Action
end StreamTable
