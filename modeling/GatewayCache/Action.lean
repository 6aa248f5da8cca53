import GatewayCache.Error

/-! # Actions

An action reads and writes a state and may be refused with an error on the way.
Nothing is rolled back: what was written before the refusal stays written.
-/

namespace GatewayCache

/-- Work on a state that may be refused. -/
abbrev Action (σ : Type) := ExceptT CacheError (StateM σ)

namespace Action

variable {σ α β : Type}

/-- What an action does to a state, and how it ends. -/
def on (action : Action σ α) (state : σ) : Except CacheError α × σ := action.run.run state

/-- The action that does to a state what a function says. -/
def ofFunction (work : σ → Except CacheError α × σ) : Action σ α := ExceptT.mk work

/-- The action carried out to its end, where a refusal is an answer like any other. -/
def attempt (action : Action σ α) : Action σ (Except CacheError α) :=
  ofFunction (fun state => ((.ok (action.on state).1 : Except CacheError _), (action.on state).2))

theorem ext {first second : Action σ α} (same : ∀ state, first.on state = second.on state) :
    first = second := funext same

@[simp]
theorem on_pure (value : α) (state : σ) : (pure value : Action σ α).on state = (.ok value, state) := rfl

@[simp]
theorem on_bind (action : Action σ α) (next : α → Action σ β) (state : σ) :
    (action >>= next).on state =
      match action.on state with
      | (.ok value, state) => (next value).on state
      | (.error error, state) => (.error error, state) := by
  simp only [on, ExceptT.run_bind, StateT.run_bind]
  change (match action.run.run state with | (result, state) => _) = _
  rcases action.run.run state with ⟨_ | _, _⟩ <;> rfl

@[simp]
theorem on_map (f : α → β) (action : Action σ α) (state : σ) :
    (f <$> action).on state = ((action.on state).1.map f, (action.on state).2) := by
  rw [map_eq_pure_bind, on_bind]
  rcases action.on state with ⟨_ | _, _⟩ <;> rfl

@[simp]
theorem on_throw (error : CacheError) (state : σ) :
    (throw error : Action σ α).on state = (.error error, state) := rfl

@[simp]
theorem on_liftExcept (result : Except CacheError α) (state : σ) :
    (liftM result : Action σ α).on state = (result, state) := rfl

@[simp]
theorem on_get (state : σ) : (get : Action σ σ).on state = (.ok state, state) := rfl

@[simp]
theorem on_modify (change : σ → σ) (state : σ) :
    (modify change : Action σ PUnit).on state = (.ok ⟨⟩, change state) := rfl

@[simp]
theorem on_ofFunction (work : σ → Except CacheError α × σ) (state : σ) :
    (ofFunction work).on state = work state := rfl

@[simp]
theorem on_attempt (action : Action σ α) (state : σ) :
    action.attempt.on state = (.ok (action.on state).1, (action.on state).2) := rfl

@[simp]
theorem on_ite (condition : Prop) [Decidable condition] (yes no : Action σ α) (state : σ) :
    (if condition then yes else no).on state = if condition then yes.on state else no.on state := by
  split <;> rfl

end Action

end GatewayCache
