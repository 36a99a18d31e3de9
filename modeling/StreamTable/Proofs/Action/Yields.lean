/-
Results and faults of computations with a state that may fail.  What a computation yields, from
some state, it yields by the results of its parts; the states in between play no part.
-/
import StreamTable.Proofs.Action.Ends

namespace StreamTable

variable {σ ε α β : Type} {x : StateT σ (Except ε) α} {a : α}

/-- A computation gives a result from some state. -/
def Yields (x : StateT σ (Except ε) α) (a : α) : Prop := ∃ s s', x.run s = .ok (a, s')

theorem yields_bind {f : α → StateT σ (Except ε) β} {b : β} (h : Yields (x >>= f) b) :
    ∃ a, Yields x a ∧ Yields (f a) b := by
  obtain ⟨s, s', h⟩ := h
  obtain ⟨⟨a, s₁⟩, hx, hf⟩ := Except.of_bind_ok h
  exact ⟨a, ⟨s, s₁, hx⟩, ⟨s₁, s', hf⟩⟩

theorem yields_pure {b : α} (h : Yields (pure b : StateT σ (Except ε) α) a) : a = b := by
  obtain ⟨s, s', h⟩ := h
  cases h
  rfl

theorem not_yields_throw {e : ε} : ¬Yields (throw e : StateT σ (Except ε) α) a := by
  rintro ⟨s, s', h⟩
  cases h

theorem yields_lift {r : Except ε α} (h : Yields (liftM r : StateT σ (Except ε) α) a) :
    r = .ok a := by
  obtain ⟨s, s', h⟩ := h
  cases r with
  | ok b =>
    cases h
    rfl
  | error e => cases h

theorem yields_of_run' {s : σ} (h : x.run' s = .ok a) : Yields x a := by
  obtain ⟨⟨b, s'⟩, hx, h⟩ := Except.of_bind_ok h
  cases h
  exact ⟨s, s', hx⟩

/-- A computation goes on in the same way after a check that may have to be made. -/
theorem yields_check {c : Prop} [Decidable c] {check : StateT σ (Except ε) Unit}
    {f : Unit → StateT σ (Except ε) α} (h : Yields (if c then check >>= f else f ()) a) :
    (c → Yields check ()) ∧ Yields (f ()) a := by
  split at h
  · obtain ⟨u, hu, h⟩ := yields_bind h
    exact ⟨fun _ => hu, h⟩
  · rename_i hc
    exact ⟨fun h => absurd h hc, h⟩

/-! ## Faults

What a computation fails with, from any state, one of its parts fails with. -/

/-- A computation fails with nothing but certain errors. -/
def FailsOnly (E : ε → Prop) (x : StateT σ (Except ε) α) : Prop := ∀ s e, x.run s = .error e → E e

section Faults

variable {E : ε → Prop}

theorem failsOnly_pure (a : α) : FailsOnly E (pure a : StateT σ (Except ε) α) := by
  intro s e h
  cases h

theorem failsOnly_throw {e : ε} (he : E e) : FailsOnly E (throw e : StateT σ (Except ε) α) := by
  intro s e' h
  cases h
  exact he

theorem failsOnly_lift {r : Except ε α} (hr : ∀ e, r = .error e → E e) :
    FailsOnly E (liftM r : StateT σ (Except ε) α) := by
  intro s e h
  cases r with
  | ok a => cases h
  | error e' =>
    cases h
    exact hr e rfl

theorem failsOnly_get : FailsOnly E (get : StateT σ (Except ε) σ) := by
  intro s e h
  cases h

theorem failsOnly_set (s' : σ) : FailsOnly E (set s' : StateT σ (Except ε) PUnit) := by
  intro s e h
  cases h

theorem failsOnly_modify (f : σ → σ) : FailsOnly E (modify f : StateT σ (Except ε) PUnit) := by
  intro s e h
  cases h

theorem failsOnly_bind {f : α → StateT σ (Except ε) β} (hx : FailsOnly E x)
    (hf : ∀ a, Yields x a → FailsOnly E (f a)) : FailsOnly E (x >>= f) := by
  intro s e h
  have h : ((x.run s) >>= fun p => (f p.1).run p.2) = .error e := h
  cases hrun : x.run s with
  | error e' =>
    rw [hrun] at h
    cases h
    exact hx s e hrun
  | ok p =>
    rw [hrun] at h
    exact hf p.1 ⟨s, p.2, hrun⟩ p.2 e h

theorem failsOnly_of_check {c : Prop} [Decidable c] {check : StateT σ (Except ε) Unit}
    {f : Unit → StateT σ (Except ε) α} (hcheck : c → FailsOnly E check)
    (hf : FailsOnly E (f ())) : FailsOnly E (if c then check >>= f else f ()) := by
  split
  · rename_i hc
    exact failsOnly_bind (hcheck hc) fun _ _ => hf
  · exact hf

theorem FailsOnly.run' {s : σ} {e : ε} (hx : FailsOnly E x) (h : x.run' s = .error e) : E e := by
  have h : ((x.run s) >>= fun p => Except.ok p.1) = .error e := h
  cases hrun : x.run s with
  | error e' =>
    rw [hrun] at h
    cases h
    exact hx s e hrun
  | ok p =>
    rw [hrun] at h
    cases h

end Faults

end StreamTable
