import MappingSweep.Action

/-!
# Threads

A computation that takes its steps one at a time on a state it shares with others.  Every step sees
the state as the steps before it have left it, whoever took them, and changes it at once.
-/

namespace MappingSweep

inductive Thread (σ α : Type) where
  | ended (result : α)
  | step (change : σ → σ) (next : σ → Thread σ α)

namespace Thread

variable {σ α β : Type}

def andThen : Thread σ α → (α → Thread σ β) → Thread σ β
  | ended x, f => f x
  | step change next, f => step change fun s => (next s).andThen f

instance : Monad (Thread σ) where
  pure := ended
  bind := andThen

/-- The whole computation, with no step of another one in between. -/
def run : Thread σ α → σ → α × σ
  | ended x, s => (x, s)
  | step change next, s => (next s).run (change s)

/-- Threads one after the other. -/
def runAll : List (Thread σ α) → σ → List α × σ
  | [], s => ([], s)
  | t :: rest, s =>
    let (x, s) := t.run s
    let (xs, s) := runAll rest s
    (x :: xs, s)

theorem run_andThen (t : Thread σ α) (f : α → Thread σ β) (s : σ) :
    (t.andThen f).run s = (f (t.run s).1).run (t.run s).2 := by
  induction t generalizing s with
  | ended x => rfl
  | step change next ih => exact ih s (change s)

end Thread

/-- A thread that may fail; a failure ends it. -/
abbrev Task (ε σ α : Type) : Type :=
  ExceptT ε (Thread σ) α

/-- An action as one step. -/
def Action.task {ε σ α : Type} (a : Action ε σ α) : Task ε σ α :=
  ExceptT.mk (.step (fun s => (a s).2) fun s => .ended (a s).1)

namespace Task

variable {ε ε' σ α : Type}

def mapError (t : Task ε σ α) (f : ε → ε') : Task ε' σ α :=
  ExceptT.mk (do return (← t.run).mapError f)

/-- The whole task as one action. -/
def alone (t : Task ε σ α) : Action ε σ α :=
  Thread.run (ExceptT.run t)

end Task
end MappingSweep
