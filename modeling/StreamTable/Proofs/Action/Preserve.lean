/-
What actions leave alone.  `Preserves f a` says that no run of `a` changes what `f` shows of the
state, whether it succeeds or fails.  An action preserves what all its parts preserve.
-/
import StreamTable.Proofs.Action.Maintain

namespace StreamTable
namespace Action

variable {σ τ α β γ : Type} {f : σ → γ}

def Preserves (f : σ → γ) (a : Action σ α) : Prop := ∀ s, f (a.run s).state = f s

theorem preserves_pure (x : α) : Preserves f (Pure.pure x) := fun _ => rfl

theorem preserves_fail (e : Failure) : Preserves f (fail e : Action σ α) := fun _ => rfl

theorem preserves_get : Preserves f get := fun _ => rfl

theorem preserves_log (e : Log.Entry) : Preserves f (log e) := fun _ => rfl

theorem preserves_lift (r : Except Failure α) : Preserves f (lift r) := fun _ => rfl

theorem preserves_modify {g : σ → σ} (h : ∀ s, f (g s) = f s) : Preserves f (modify g) := h

/-- To preserve what is shown is to keep it true that it is what it is. -/
theorem preserves_iff {a : Action σ α} :
    Preserves f a ↔ ∀ x, Maintains (fun s => f s = x) a := by
  constructor
  · exact fun ha x s hs => (ha s).trans hs
  · exact fun ha s => ha (f s) s rfl

theorem Preserves.bind {a : Action σ α} {g : α → Action σ β} (ha : Preserves f a)
    (hg : ∀ x, Preserves f (g x)) : Preserves f (a >>= g) :=
  preserves_iff.mpr fun x => (preserves_iff.mp ha x).bind fun y => preserves_iff.mp (hg y) x

theorem preserves_ite {c : Prop} [Decidable c] {a b : Action σ α} (ha : Preserves f a)
    (hb : Preserves f b) : Preserves f (if c then a else b) :=
  preserves_iff.mpr fun x => maintains_ite (preserves_iff.mp ha x) (preserves_iff.mp hb x)

theorem Preserves.attempt {a : Action σ α} (ha : Preserves f a) : Preserves f a.attempt := ha

/-- What does not depend on a part is preserved by every action on the part. -/
theorem preserves_focus {part : σ → τ} {update : τ → σ → σ} (a : Action τ α)
    (h : ∀ t s, f (update t s) = f s) : Preserves f (a.focus part update) :=
  fun s => h _ s

/-- What can be read off what is preserved is preserved. -/
theorem Preserves.comp {a : Action σ α} {δ : Type} (ha : Preserves f a) (g : γ → δ) :
    Preserves (fun s => g (f s)) a := fun s => congrArg g (ha s)

theorem Preserves.ends {a : Action σ α} (h : Preserves f a) (s : σ) :
    a.Ends s (fun _ t => f t = f s) (fun _ t => f t = f s) :=
  ends_of_state (R := fun t => f t = f s) (h s)

end Action
end StreamTable
