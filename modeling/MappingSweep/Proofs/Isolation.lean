import MappingSweep.Proofs.Pool

/-!
# Threads that look at a part of the state

A thread that cannot tell two states apart does the same from both.  Such a thread does between the
steps of others what it does by itself, as long as the others leave its part of the state alone.
-/

namespace MappingSweep

variable {σ α β ν : Type}

/-- The thread does the same from states that look alike, which they go on doing, and every step of
it is one of the given moves. -/
inductive Thread.Isolated (alike moves : σ → σ → Prop) : Thread σ α → Prop
  | ended (x : α) : Isolated alike moves (.ended x)
  | step {change : σ → σ} {next : σ → Thread σ α}
      (halike : ∀ s g, alike s g → alike (change s) (change g))
      (hmoves : ∀ s g, alike s g → moves s (change s))
      (hsame : ∀ s g, alike s g → next s = next g)
      (hnext : ∀ s g, alike s g → Isolated alike moves (next g)) :
      Isolated alike moves (.step change next)

namespace Thread

variable {alike moves : σ → σ → Prop}

theorem Isolated.andThen {t : Thread σ β} {f : β → Thread σ α} (h : t.Isolated alike moves)
    (hf : ∀ x, (f x).Isolated alike moves) : (t.andThen f).Isolated alike moves := by
  induction h with
  | ended x => exact hf x
  | step halike hmoves hsame _ ih =>
    refine .step halike hmoves ?_ ih
    intro s g hs
    rw [hsame s g hs]

/-- By itself the thread ends the same from states that look alike. -/
theorem Isolated.run {t : Thread σ α} (h : t.Isolated alike moves) {s g : σ} (hs : alike s g) :
    (t.run s).1 = (t.run g).1 ∧ alike (t.run s).2 (t.run g).2 := by
  induction h generalizing s g with
  | ended x => exact ⟨rfl, hs⟩
  | @step change next halike _ hsame _ ih =>
    simp only [Thread.run]
    rw [hsame s g hs]
    exact ih s g hs (halike s g hs)

theorem Isolated.run_moves {t : Thread σ α} (h : t.Isolated alike moves) {s g : σ}
    (hs : alike s g) (hrefl : ∀ s, moves s s)
    (htrans : ∀ s s' s'', moves s s' → moves s' s'' → moves s s'') : moves s (t.run s).2 := by
  induction h generalizing s g with
  | ended x => exact hrefl s
  | @step change next halike hmoves hsame _ ih =>
    simp only [Thread.run]
    rw [hsame s g hs]
    exact htrans _ _ _ (hmoves s g hs) (ih s g hs (halike s g hs))

/-- Between the steps of others the thread ends as it does from a state of its own, which its note
keeps up with. -/
theorem Isolated.keeps {inv : List ν → σ → Prop} {i : Nat} {t : Thread σ α}
    (h : t.Isolated alike moves) (noteOf : σ → ν)
    (hinv : ∀ notes s g, notes[i]? = some (noteOf g) → inv notes s → alike s g)
    (hset : ∀ notes s g s' g', notes[i]? = some (noteOf g) → inv notes s → moves s s' →
      alike s' g' → inv (notes.set i (noteOf g')) s') (g : σ) :
    t.Keeps inv i (fun _ x => x = (t.run g).1) (noteOf g) := by
  induction h generalizing g with
  | ended x => exact .ended rfl
  | @step change next halike hmoves hsame _ ih =>
    refine .step (fun _ => noteOf (change g)) ?_ ?_
    · intro notes s hnote hs
      have hlike := hinv notes s g hnote hs
      exact hset notes s g _ _ hnote hs (hmoves s g hlike) (halike s g hlike)
    · intro notes s hnote hs
      have hlike := hinv notes s g hnote hs
      rw [hsame s g hlike]
      exact ih s g hlike (change g)

end Thread

namespace Task

variable {ε ε' : Type} {alike moves : σ → σ → Prop}

def Isolated (alike moves : σ → σ → Prop) (t : Task ε σ α) : Prop :=
  Thread.Isolated alike moves t.run

theorem Isolated.alone {t : Task ε σ α} (h : Isolated alike moves t) {s g : σ}
    (hs : alike s g) :
    (t.alone s).1 = (t.alone g).1 ∧ alike (t.alone s).2 (t.alone g).2 :=
  Thread.Isolated.run h hs

theorem isolated_pure (x : α) : Isolated alike moves (pure x : Task ε σ α) :=
  .ended _

theorem Isolated.bind {t : Task ε σ β} {f : β → Task ε σ α} (h : Isolated alike moves t)
    (hf : ∀ x, Isolated alike moves (f x)) : Isolated alike moves (t >>= f) := by
  apply Thread.Isolated.andThen h
  intro r
  cases r with
  | ok x => exact hf x
  | error e => exact .ended _

theorem Isolated.mapError {t : Task ε σ α} (h : Isolated alike moves t) (f : ε → ε') :
    Isolated alike moves (t.mapError f) :=
  Thread.Isolated.andThen h fun r => .ended (r.mapError f)

end Task

theorem Action.isolated_task {ε : Type} {alike moves : σ → σ → Prop} {a : Action ε σ α}
    (halike : ∀ s g, alike s g → alike (a s).2 (a g).2)
    (hmoves : ∀ s g, alike s g → moves s (a s).2)
    (hresult : ∀ s g, alike s g → (a s).1 = (a g).1) : Task.Isolated alike moves a.task := by
  refine .step halike hmoves ?_ fun _ _ _ => .ended _
  intro s g hs
  rw [hresult s g hs]

/-- What comes after an action has only to do with results that the action can have. -/
theorem Action.isolated_bind {ε ε' : Type} {alike moves : σ → σ → Prop} {a : Action ε σ β}
    {g : ε → ε'} {f : β → Task ε' σ α} (h : Task.Isolated alike moves a.task)
    (hf : ∀ s x, (a s).1 = .ok x → Task.Isolated alike moves (f x)) :
    Task.Isolated alike moves (a.task.mapError g >>= f) := by
  let rest : Except ε β → Thread σ (Except ε' α) := fun r => ExceptT.bindCont f (r.mapError g)
  cases h with
  | step halike hmoves hsame _ =>
    have hnext : ∀ s, Thread.Isolated alike moves (rest (a s).1) := by
      intro s
      cases hresult : (a s).1 with
      | error e => exact .ended _
      | ok x => exact hf s x hresult
    refine .step halike hmoves (fun s g hs => ?_) fun _ s _ => hnext s
    exact congrArg rest (Thread.ended.inj (hsame s g hs))

end MappingSweep
