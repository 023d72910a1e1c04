import MappingSweep.Thread

/-!
# Pools

Threads that take turns on one state, with a background that changes it too.  Turns say who takes
the next step; threads that the turns leave behind go on one after the other.  Every interleaving is
that of some turns, and a pool that runs only some threads at a time allows fewer.
-/

namespace MappingSweep

inductive Turn where
  /-- The next step of a thread, by the thread's number. -/
  | thread (number : Nat)
  | background
deriving DecidableEq, Repr

structure Pool (σ α : Type) where
  state : σ
  threads : List (Thread σ α)

namespace Pool

variable {σ α : Type}

/-- The next step of one thread.  One that has ended, or is not there, lets its turn pass. -/
def advance (p : Pool σ α) (i : Nat) : Pool σ α :=
  match p.threads[i]? with
  | some (.step change next) => ⟨change p.state, p.threads.set i (next p.state)⟩
  | _ => p

def take (background : σ → σ) (p : Pool σ α) : Turn → Pool σ α
  | .thread i => p.advance i
  | .background => { p with state := background p.state }

def play (background : σ → σ) (turns : List Turn) (p : Pool σ α) : Pool σ α :=
  turns.foldl (take background) p

/-- The turns, and then all threads to their ends. -/
def finish (background : σ → σ) (turns : List Turn) (p : Pool σ α) : List α × σ :=
  let p := p.play background turns
  Thread.runAll p.threads p.state

end Pool
end MappingSweep
