/-!
# Fallible actions on a state

Providers of cryptography, random sources and decryption backends act on a state that the
library knows nothing about. An action always leaves a state behind, whether it succeeds or not.

- `Action σ ε α`: an action on states `σ` that fails with `ε` or gives an `α`.
- `Action.run`: the outcome and the state left behind, with one equation for each way to build
  an action.
- `Action.mapError`: the same action with its errors renamed.
-/

namespace KeySharing

/-- An action on a state of type `σ` that fails with an `ε` or succeeds. -/
abbrev Action (σ ε : Type) : Type → Type := ExceptT ε (StateM σ)

variable {σ ε ε' α β : Type}

/-- Renaming errors neither makes nor hides a success. -/
theorem mapError_eq_ok_iff {outcome : Except ε α} {f : ε → ε'} {a : α} :
    outcome.mapError f = .ok a ↔ outcome = .ok a := by
  cases outcome with
  | ok b =>
    constructor
    · rintro ⟨⟩
      rfl
    · rintro ⟨⟩
      rfl
  | error e =>
    constructor
    · rintro ⟨⟩
    · rintro ⟨⟩

/-- The errors of an outcome are renamed, and no others are left. -/
theorem mapError_eq_error_iff {outcome : Except ε α} {f : ε → ε'} {e : ε'} :
    outcome.mapError f = .error e ↔ ∃ cause, outcome = .error cause ∧ e = f cause := by
  cases outcome with
  | ok a =>
    constructor
    · rintro ⟨⟩
    · rintro ⟨_, ⟨⟩, -⟩
  | error cause =>
    constructor
    · rintro ⟨⟩
      exact ⟨cause, rfl, rfl⟩
    · rintro ⟨_, ⟨⟩, rfl⟩
      rfl

namespace Action

/-- The outcome of an action and the state it leaves behind. -/
def run (action : Action σ ε α) (state : σ) : Except ε α × σ := StateT.run (ExceptT.run action) state

/-- The action with the given outcomes. -/
def ofRun (f : σ → Except ε α × σ) : Action σ ε α := ExceptT.mk f

/-- The action that leaves the state alone and has a known outcome. -/
def ofExcept (outcome : Except ε α) : Action σ ε α := ofRun fun state => (outcome, state)

/-- The same action with its errors renamed. -/
def mapError (f : ε → ε') (action : Action σ ε α) : Action σ ε' α :=
  ofRun fun state => ((action.run state).1.mapError f, (action.run state).2)

@[simp] theorem run_ofRun (f : σ → Except ε α × σ) (state : σ) :
    (ofRun f).run state = f state := rfl

@[simp] theorem run_pure (a : α) (state : σ) :
    (pure a : Action σ ε α).run state = (.ok a, state) := rfl

@[simp] theorem run_throw (e : ε) (state : σ) :
    (throw e : Action σ ε α).run state = (.error e, state) := rfl

@[simp] theorem run_ofExcept (outcome : Except ε α) (state : σ) :
    (ofExcept outcome : Action σ ε α).run state = (outcome, state) := rfl

@[simp] theorem run_mapError (f : ε → ε') (action : Action σ ε α) (state : σ) :
    (action.mapError f).run state = ((action.run state).1.mapError f, (action.run state).2) := rfl

/-- The second action runs in the state the first one leaves, and only if the first succeeds. -/
theorem run_bind (action : Action σ ε α) (next : α → Action σ ε β) (state : σ) :
    (action >>= next).run state =
      match action.run state with
      | (.ok a, state') => (next a).run state'
      | (.error e, state') => (.error e, state') := by
  change StateT.run (ExceptT.run (action >>= next)) state = _
  simp only [ExceptT.run_bind, StateT.run_bind]
  change (match StateT.run (ExceptT.run action) state with | (r, s) => _) = _
  unfold run
  generalize StateT.run (ExceptT.run action) state = outcome
  obtain ⟨r, s⟩ := outcome
  cases r <;> rfl

@[simp] theorem run_get (state : σ) : (get : Action σ ε σ).run state = (.ok state, state) := rfl

/-- After a success the second action runs. -/
theorem run_bind_of_ok {action : Action σ ε α} {next : α → Action σ ε β} {state state' : σ} {a : α}
    (h : action.run state = (.ok a, state')) :
    (action >>= next).run state = (next a).run state' := by
  rw [run_bind, h]

/-- After a failure the second action does not run. -/
theorem run_bind_of_error {action : Action σ ε α} {next : α → Action σ ε β} {state state' : σ}
    {e : ε} (h : action.run state = (.error e, state')) :
    (action >>= next).run state = (.error e, state') := by
  rw [run_bind, h]

/-- Two actions in a row succeed exactly if both do. -/
theorem run_bind_eq_ok_iff {action : Action σ ε α} {next : α → Action σ ε β} {state state'' : σ}
    {b : β} :
    (action >>= next).run state = (.ok b, state'') ↔
      ∃ a state', action.run state = (.ok a, state') ∧ (next a).run state' = (.ok b, state'') := by
  rw [run_bind]
  rcases action.run state with ⟨outcome, state'⟩
  cases outcome with
  | ok a =>
    constructor
    · exact fun h => ⟨a, state', rfl, h⟩
    · rintro ⟨_, _, ⟨⟩, h⟩
      exact h
  | error e =>
    constructor
    · rintro ⟨⟩
    · rintro ⟨_, _, ⟨⟩, -⟩

/-- Two actions in a row fail exactly if the first one fails, or the second one after it. -/
theorem run_bind_eq_error_iff {action : Action σ ε α} {next : α → Action σ ε β}
    {state state'' : σ} {e : ε} :
    (action >>= next).run state = (.error e, state'') ↔
      action.run state = (.error e, state'') ∨
        ∃ a state', action.run state = (.ok a, state') ∧
          (next a).run state' = (.error e, state'') := by
  rw [run_bind]
  rcases action.run state with ⟨outcome, state'⟩
  cases outcome with
  | ok a =>
    constructor
    · exact fun h => .inr ⟨a, state', rfl, h⟩
    · rintro (h | ⟨_, _, ⟨⟩, h⟩)
      · cases h
      · exact h
  | error cause =>
    constructor
    · rintro ⟨⟩
      exact .inl rfl
    · rintro (h | ⟨_, _, ⟨⟩, -⟩)
      cases h
      rfl

/-- Two actions in a row succeed only if both do. -/
theorem exists_of_run_bind {action : Action σ ε α} {next : α → Action σ ε β} {state state'' : σ}
    {b : β} (h : (action >>= next).run state = (.ok b, state'')) :
    ∃ a state', action.run state = (.ok a, state') ∧ (next a).run state' = (.ok b, state'') :=
  run_bind_eq_ok_iff.mp h

/-- Errors can be renamed one action at a time. -/
theorem mapError_bind (f : ε → ε') (action : Action σ ε α) (next : α → Action σ ε β) :
    (action >>= next).mapError f = action.mapError f >>= fun a => (next a).mapError f := by
  refine funext fun state => ?_
  show ((action >>= next).mapError f).run state = (action.mapError f >>= _).run state
  rw [run_mapError, run_bind, run_bind, run_mapError]
  obtain ⟨outcome, s⟩ := action.run state
  cases outcome with
  | ok a => rfl
  | error e => rfl

/-- An action with renamed errors has the same successes. -/
theorem run_mapError_eq_ok {action : Action σ ε α} {f : ε → ε'} {state state' : σ} {a : α} :
    (action.mapError f).run state = (.ok a, state') ↔ action.run state = (.ok a, state') := by
  rw [run_mapError, Prod.ext_iff, Prod.ext_iff, mapError_eq_ok_iff]

end Action

end KeySharing
