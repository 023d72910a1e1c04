import MappingSweep.Thread

/-!
# The steps of a thread

A thread by itself goes through states, one after each of its steps.  A task that is made of others
goes through the states of its parts, up to the part that fails.
-/

namespace MappingSweep

variable {σ α β ε ε' ι : Type}

namespace Thread

/-- The states after the steps of the thread, if no other thread takes one. -/
def states : Thread σ α → σ → List σ
  | ended _, _ => []
  | step change next, s => change s :: (next s).states (change s)

theorem states_andThen (t : Thread σ α) (f : α → Thread σ β) (s : σ) :
    (t.andThen f).states s = t.states s ++ (f (t.run s).1).states (t.run s).2 := by
  induction t generalizing s with
  | ended x => rfl
  | step change next ih => exact congrArg (change s :: ·) (ih s (change s))

theorem runAll_cons (t : Thread σ α) (ts : List (Thread σ α)) (s : σ) :
    runAll (t :: ts) s =
      ((t.run s).1 :: (runAll ts (t.run s).2).1, (runAll ts (t.run s).2).2) :=
  rfl

end Thread

namespace Task

variable {t : Task ε σ α} {f : α → Task ε σ β} {s mid : σ}

def states (t : Task ε σ α) : σ → List σ :=
  Thread.states (ExceptT.run t)

theorem alone_task (a : Action ε σ α) (s : σ) : a.task.alone s = a s :=
  rfl

theorem states_task (a : Action ε σ α) (s : σ) : a.task.states s = [(a s).2] :=
  rfl

theorem alone_bind_of_ok {x : α} (h : t.alone s = (.ok x, mid)) :
    (t >>= f).alone s = (f x).alone mid := by
  have hrun := Thread.run_andThen (ExceptT.run t) (ExceptT.bindCont f) s
  rw [alone] at h
  rw [h] at hrun
  exact hrun

theorem alone_bind_of_error {e : ε} (h : t.alone s = (.error e, mid)) :
    (t >>= f).alone s = (.error e, mid) := by
  have hrun := Thread.run_andThen (ExceptT.run t) (ExceptT.bindCont f) s
  rw [alone] at h
  rw [h] at hrun
  exact hrun

theorem states_bind_of_ok {x : α} (h : t.alone s = (.ok x, mid)) :
    (t >>= f).states s = t.states s ++ (f x).states mid := by
  have hstates := Thread.states_andThen (ExceptT.run t) (ExceptT.bindCont f) s
  rw [alone] at h
  rw [h] at hstates
  exact hstates

theorem states_bind_of_error {e : ε} (h : t.alone s = (.error e, mid)) :
    (t >>= f).states s = t.states s := by
  have hstates := Thread.states_andThen (ExceptT.run t) (ExceptT.bindCont f) s
  rw [alone] at h
  rw [h] at hstates
  exact hstates.trans (List.append_nil _)

theorem alone_bind_congr {u : Task ε σ α} {s' : σ} (h : t.alone s = u.alone s') :
    (t >>= f).alone s = (u >>= f).alone s' := by
  cases hresult : t.alone s with
  | mk result mid =>
    cases result with
    | ok x => rw [alone_bind_of_ok hresult, alone_bind_of_ok (h ▸ hresult)]
    | error e => rw [alone_bind_of_error hresult, alone_bind_of_error (h ▸ hresult)]

theorem mem_states_of_first {s' : σ} (h : s' ∈ t.states s) : s' ∈ (t >>= f).states s := by
  cases hresult : t.alone s with
  | mk result mid =>
    cases result with
    | ok x =>
      rw [states_bind_of_ok hresult]
      exact List.mem_append_left _ h
    | error e =>
      rw [states_bind_of_error hresult]
      exact h

theorem mem_states_of_next {x : α} {s' : σ} (h : t.alone s = (.ok x, mid))
    (hnext : s' ∈ (f x).states mid) : s' ∈ (t >>= f).states s := by
  rw [states_bind_of_ok h]
  exact List.mem_append_right _ hnext

theorem alone_mapError (t : Task ε σ α) (g : ε → ε') (s : σ) :
    (t.mapError g).alone s = ((t.alone s).1.mapError g, (t.alone s).2) :=
  Thread.run_andThen (ExceptT.run t) (fun r => .ended (r.mapError g)) s

theorem states_mapError (t : Task ε σ α) (g : ε → ε') (s : σ) :
    (t.mapError g).states s = t.states s :=
  (Thread.states_andThen (ExceptT.run t) (fun r => .ended (r.mapError g)) s).trans
    (List.append_nil _)

/-- Parts that keep what is seen of a state make a whole that keeps it. -/
theorem alone_bind_kept (seen : σ → ι) (ht : ∀ s, seen (t.alone s).2 = seen s)
    (hf : ∀ x s, seen ((f x).alone s).2 = seen s) (s : σ) :
    seen ((t >>= f).alone s).2 = seen s := by
  have hseen := ht s
  cases hresult : t.alone s with
  | mk result mid =>
    rw [hresult] at hseen
    cases result with
    | error e => rw [alone_bind_of_error hresult, hseen]
    | ok x => rw [alone_bind_of_ok hresult, hf x mid, hseen]

/-- The parts end well one after the other, and go through the given states from the first state to
the last. -/
inductive Passes (part : ι → Task ε σ Unit) : List ι → σ → List σ → σ → Prop
  | nil (s : σ) : Passes part [] s [] s
  | cons {i : ι} {rest : List ι} {s mid last : σ} {visited : List σ}
      (hfirst : (part i).alone s = (.ok (), mid)) (hrest : Passes part rest mid visited last) :
      Passes part (i :: rest) s ((part i).states s ++ visited) last

end Task
end MappingSweep
