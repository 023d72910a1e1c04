/-!
# Actions

Steps that change a state and may fail.  A failure ends a sequence of actions and keeps the changes
that were made before it.
-/

namespace MappingSweep

def Action (ε σ α : Type) : Type :=
  σ → Except ε α × σ

namespace Action

variable {ε ε' σ τ α β : Type}

def andThen (a : Action ε σ α) (f : α → Action ε σ β) : Action ε σ β := fun s =>
  match a s with
  | (.ok x, s) => f x s
  | (.error e, s) => (.error e, s)

instance : Monad (Action ε σ) where
  pure x := fun s => (.ok x, s)
  bind := andThen

theorem bind_apply (a : Action ε σ α) (f : α → Action ε σ β) (s : σ) :
    (a >>= f) s = match a s with
      | (.ok x, s) => f x s
      | (.error e, s) => (.error e, s) :=
  rfl

def mapError (a : Action ε σ α) (f : ε → ε') : Action ε' σ α := fun s =>
  let (result, s) := a s
  (result.mapError f, s)

def look (f : σ → Except ε α) : Action ε σ α := fun s =>
  (f s, s)

/-- A change that fails as a whole. -/
def change (f : σ → Except ε σ) : Action ε σ Unit := fun s =>
  match f s with
  | .ok s => (.ok (), s)
  | .error e => (.error e, s)

/-- A change with a result that fails as a whole. -/
def produce (f : σ → Except ε (α × σ)) : Action ε σ α := fun s =>
  match f s with
  | .ok (x, s) => (.ok x, s)
  | .error e => (.error e, s)

/-- An action on a part of the state. -/
def within (get : τ → σ) (put : τ → σ → τ) (a : Action ε σ α) : Action ε τ α := fun t =>
  let (result, s) := a (get t)
  (result, put t s)

/-- All actions in their order, up to the first failure. -/
def all : List (Action ε σ Unit) → Action ε σ Unit
  | [] => pure ()
  | a :: rest => do
    a
    all rest

theorem bind_of_ok {a : Action ε σ α} {f : α → Action ε σ β} {s mid : σ} {x : α}
    (h : a s = (.ok x, mid)) : (a >>= f) s = f x mid := by
  rw [bind_apply, h]

theorem bind_eq_ok {a : Action ε σ α} {f : α → Action ε σ β} {s s' : σ} {y : β}
    (h : (a >>= f) s = (.ok y, s')) : ∃ x mid, a s = (.ok x, mid) ∧ f x mid = (.ok y, s') := by
  rw [bind_apply] at h
  split at h
  · rename_i x mid hx
    exact ⟨x, mid, hx, h⟩
  · cases h

theorem mapError_eq_ok {a : Action ε σ α} {f : ε → ε'} {s s' : σ} {x : α}
    (h : a.mapError f s = (.ok x, s')) : a s = (.ok x, s') := by
  unfold mapError at h
  generalize a s = r at *
  obtain ⟨result, last⟩ := r
  cases result with
  | ok y =>
    cases h
    rfl
  | error e => cases h

theorem look_eq_ok {f : σ → Except ε α} {s s' : σ} {x : α} (h : look f s = (.ok x, s')) :
    f s = .ok x ∧ s' = s := by
  cases h' : f s with
  | ok y =>
    rw [look, h'] at h
    cases h
    exact ⟨rfl, rfl⟩
  | error e =>
    rw [look, h'] at h
    cases h

theorem change_eq_ok {f : σ → Except ε σ} {s s' : σ} {u : Unit} (h : change f s = (.ok u, s')) :
    f s = .ok s' := by
  unfold change at h
  split at h
  · rename_i hs
    cases h
    exact hs
  · cases h

theorem produce_eq_ok {f : σ → Except ε (α × σ)} {s s' : σ} {x : α}
    (h : produce f s = (.ok x, s')) : f s = .ok (x, s') := by
  unfold produce at h
  split at h
  · rename_i hs
    cases h
    exact hs
  · cases h

theorem all_append (a b : List (Action ε σ Unit)) (s : σ) :
    all (a ++ b) s = (all a >>= fun _ => all b) s := by
  induction a generalizing s with
  | nil => rfl
  | cons first a ih =>
    simp only [List.cons_append, all, bind_apply]
    cases first s with
    | mk result s' =>
      cases result with
      | ok _ => exact ih s'
      | error e => rfl

theorem all_flatMap (f : α → List (Action ε σ Unit)) (l : List α) (s : σ) :
    all (l.flatMap f) s = all (l.map fun x => all (f x)) s := by
  induction l generalizing s with
  | nil => rfl
  | cons x l ih =>
    rw [List.flatMap_cons, all_append, List.map_cons, all, bind_apply, bind_apply]
    cases all (f x) s with
    | mk result s' =>
      cases result with
      | ok _ => exact ih s'
      | error e => rfl

end Action

section

variable {ε ε' α : Type} (f : ε → ε')

theorem mapError_ok (x : α) : (Except.ok x : Except ε α).mapError f = .ok x :=
  rfl

theorem mapError_error (e : ε) : (Except.error e : Except ε α).mapError f = .error (f e) :=
  rfl

end

theorem mapError_eq_ok {ε ε' α : Type} {r : Except ε α} {f : ε → ε'} {x : α}
    (h : r.mapError f = .ok x) : r = .ok x := by
  cases r with
  | ok y =>
    cases h
    rfl
  | error e => cases h

theorem mapError_eq_error {ε ε' α : Type} {r : Except ε α} {f : ε → ε'} {e' : ε'}
    (h : r.mapError f = .error e') : ∃ e, r = .error e ∧ e' = f e := by
  cases r with
  | ok x => cases h
  | error e =>
    cases h
    exact ⟨e, rfl, rfl⟩

end MappingSweep
