import Mercantile.Failure

/-!
Operations on a state that may fail. What an operation changed before it failed stays changed; one that
is built by `transact` from a single pure step changes nothing when it fails.
-/

namespace Mercantile

/-- An operation on a state `σ`. -/
abbrev Action (σ : Type) := EStateM Failure σ

/-- The value, or the failure that its absence means. -/
def orFail {α : Type} (x : Option α) (e : Failure) : Except Failure α :=
  match x with
  | some a => .ok a
  | none => .error e

/-- The value, or the overflow of the figure that it was to be. -/
abbrev orOverflow {α : Type} (x : Option α) (figure : Figure) : Except Failure α :=
  orFail x (.overflow figure)

namespace Action

variable {σ α : Type}

/-- Asks without changing anything. -/
def observe (f : σ → Except Failure α) : Action σ α := fun s =>
  match f s with
  | .ok a => .ok a s
  | .error e => .error e s

/-- One step: an answer and the next state, or a failure that leaves the state as it was. -/
def transact (f : σ → Except Failure (α × σ)) : Action σ α := fun s =>
  match f s with
  | .ok (a, s') => .ok a s'
  | .error e => .error e s

/-- One step without an answer. -/
def update (f : σ → Except Failure σ) : Action σ Unit := fun s =>
  match f s with
  | .ok s' => .ok () s'
  | .error e => .error e s

/-- Runs an operation on one part of a state. -/
def zoom {τ : Type} (get : σ → τ) (set : τ → σ → σ) (x : Action τ α) : Action σ α := fun s =>
  match x (get s) with
  | .ok a t => .ok a (set t s)
  | .error e t => .error e (set t s)

/-- Evaluates an operation on a copy: the answer with the state it led to, or the failure. -/
def outcome (x : Action σ α) (s : σ) : Except Failure (α × σ) :=
  match x s with
  | .ok a s' => .ok (a, s')
  | .error e _ => .error e

instance : MonadLift (Except Failure) (Action σ) := ⟨fun x => observe fun _ => x⟩

theorem observe_ok {f : σ → Except Failure α} {s s' : σ} {a : α} :
    (observe f).run s = .ok a s' ↔ f s = .ok a ∧ s' = s := by
  simp only [observe, EStateM.run]
  cases f s <;> simp [eq_comm]

theorem observe_error {f : σ → Except Failure α} {s s' : σ} {e : Failure} :
    (observe f).run s = .error e s' ↔ f s = .error e ∧ s' = s := by
  simp only [observe, EStateM.run]
  cases f s <;> simp [eq_comm]

theorem transact_ok {f : σ → Except Failure (α × σ)} {s s' : σ} {a : α} :
    (transact f).run s = .ok a s' ↔ f s = .ok (a, s') := by
  simp only [transact, EStateM.run]
  cases f s <;> simp [Prod.ext_iff]

theorem transact_error {f : σ → Except Failure (α × σ)} {s s' : σ} {e : Failure} :
    (transact f).run s = .error e s' ↔ f s = .error e ∧ s' = s := by
  simp only [transact, EStateM.run]
  cases f s <;> simp [eq_comm]

theorem update_ok {f : σ → Except Failure σ} {s s' : σ} {u : Unit} :
    (update f).run s = .ok u s' ↔ f s = .ok s' := by
  simp only [update, EStateM.run]
  cases f s <;> simp

theorem update_error {f : σ → Except Failure σ} {s s' : σ} {e : Failure} :
    (update f).run s = .error e s' ↔ f s = .error e ∧ s' = s := by
  simp only [update, EStateM.run]
  cases f s <;> simp [eq_comm]

end Action

end Mercantile
