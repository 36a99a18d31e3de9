/-
Actions: steps that may fail, change a state, and log.  What was changed and logged before a
failure stays, so a commit that fails half way leaves the world as far as it got.

`Action.focus` runs an action on a part of a larger state, and `Action.attempt` turns a failure
into a result, so that the state after it can be dealt with.
-/
import StreamTable.Failure
import StreamTable.Log.Entry

namespace StreamTable

/-- What an action comes to: its result, the state after it, and what it logged, oldest first. -/
structure Effect (σ α : Type) where
  result : Except Failure α
  state : σ
  log : List Log.Entry

/-- A step on a state. -/
def Action (σ α : Type) := σ → Effect σ α

namespace Action

variable {σ τ α β : Type}

def run (a : Action σ α) (s : σ) : Effect σ α := a s

def pure (x : α) : Action σ α := fun s => ⟨.ok x, s, []⟩

def bind (a : Action σ α) (f : α → Action σ β) : Action σ β := fun s =>
  match a s with
  | ⟨.ok x, s, log⟩ => let next := f x s; ⟨next.result, next.state, log ++ next.log⟩
  | ⟨.error f, s, log⟩ => ⟨.error f, s, log⟩

instance : Monad (Action σ) where
  pure := Action.pure
  bind := Action.bind

def fail (f : Failure) : Action σ α := fun s => ⟨.error f, s, []⟩

def get : Action σ σ := fun s => ⟨.ok s, s, []⟩

def modify (f : σ → σ) : Action σ Unit := fun s => ⟨.ok (), f s, []⟩

def log (e : Log.Entry) : Action σ Unit := fun s => ⟨.ok (), s, [e]⟩

/-- A result that is known. -/
def lift (r : Except Failure α) : Action σ α := fun s => ⟨r, s, []⟩

/-- Run an action; its failure is a result. -/
def attempt (a : Action σ α) : Action σ (Except Failure α) := fun s =>
  let e := a s
  ⟨.ok e.result, e.state, e.log⟩

/-- Run an action on a part of the state. -/
def focus (view : σ → τ) (update : τ → σ → σ) (a : Action τ α) : Action σ α := fun s =>
  let e := a (view s)
  ⟨e.result, update e.state s, e.log⟩

/-! ## How actions run

One rule for each way to build an action, so that a run is worked out from the outside in. -/

@[simp]
theorem run_pure (x : α) (s : σ) : (Pure.pure x : Action σ α).run s = ⟨.ok x, s, []⟩ := rfl

@[simp]
theorem run_fail (f : Failure) (s : σ) : (fail f : Action σ α).run s = ⟨.error f, s, []⟩ := rfl

@[simp]
theorem run_get (s : σ) : (get : Action σ σ).run s = ⟨.ok s, s, []⟩ := rfl

@[simp]
theorem run_modify (f : σ → σ) (s : σ) : (modify f).run s = ⟨.ok (), f s, []⟩ := rfl

@[simp]
theorem run_log (e : Log.Entry) (s : σ) : (log e).run s = ⟨.ok (), s, [e]⟩ := rfl

@[simp]
theorem run_lift (r : Except Failure α) (s : σ) : (lift r).run s = ⟨r, s, []⟩ := rfl

@[simp]
theorem run_attempt (a : Action σ α) (s : σ) :
    (attempt a).run s = ⟨.ok (a.run s).result, (a.run s).state, (a.run s).log⟩ := rfl

@[simp]
theorem run_focus (view : σ → τ) (update : τ → σ → σ) (a : Action τ α) (s : σ) :
    (focus view update a).run s =
      ⟨(a.run (view s)).result, update (a.run (view s)).state s, (a.run (view s)).log⟩ := rfl

/-- An action that succeeds hands its result and its state on. -/
theorem run_bind_of_ok {a : Action σ α} {f : α → Action σ β} {s t : σ} {x : α}
    {log : List Log.Entry} (h : a.run s = ⟨.ok x, t, log⟩) :
    (a >>= f).run s =
      ⟨((f x).run t).result, ((f x).run t).state, log ++ ((f x).run t).log⟩ := by
  show Action.bind a f s = _
  unfold Action.bind
  rw [show a s = ⟨.ok x, t, log⟩ from h]
  rfl

theorem run_bind_of_error {a : Action σ α} {f : α → Action σ β} {s t : σ} {fault : Failure}
    {log : List Log.Entry} (h : a.run s = ⟨.error fault, t, log⟩) :
    (a >>= f).run s = ⟨.error fault, t, log⟩ := by
  show Action.bind a f s = _
  unfold Action.bind
  rw [show a s = ⟨.error fault, t, log⟩ from h]

theorem ext {a b : Action σ α} (h : ∀ s, a.run s = b.run s) : a = b := funext h

theorem bind_pure (a : Action σ α) : (a >>= fun x => (Pure.pure x : Action σ α)) = a := by
  refine ext fun s => ?_
  match h : a.run s with
  | ⟨.ok x, t, log⟩ => rw [run_bind_of_ok h, run_pure, List.append_nil]
  | ⟨.error fault, t, log⟩ => rw [run_bind_of_error h]

theorem bind_assoc {γ : Type} (a : Action σ α) (f : α → Action σ β) (g : β → Action σ γ) :
    (a >>= f >>= g) = a >>= fun x => f x >>= g := by
  refine ext fun s => ?_
  match h : a.run s with
  | ⟨.error fault, t, log⟩ => rw [run_bind_of_error (run_bind_of_error h), run_bind_of_error h]
  | ⟨.ok x, t, log⟩ =>
    rw [run_bind_of_ok h]
    match h' : (f x).run t with
    | ⟨.error fault, u, more⟩ =>
      rw [run_bind_of_error (f := g) h',
        run_bind_of_error (a := a >>= f) (by rw [run_bind_of_ok h, h'])]
    | ⟨.ok y, u, more⟩ =>
      rw [run_bind_of_ok (f := g) h', run_bind_of_ok (a := a >>= f) (by rw [run_bind_of_ok h, h']),
        List.append_assoc]

instance : LawfulMonad (Action σ) :=
  LawfulMonad.mk' (Action σ) bind_pure
    (fun x f => ext fun s => by rw [run_bind_of_ok (run_pure x s), List.nil_append])
    bind_assoc

end Action
end StreamTable
