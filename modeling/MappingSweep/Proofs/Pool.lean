import MappingSweep.Pool

/-!
# Threads that keep an invariant

What is to be known of threads on a common state is said by one invariant of the state and of a note
for each thread.  A thread keeps it when each of its steps does, with a new note of its own and the
other notes as they are, and when its result agrees with its last note.  Then all turns keep it, and
the results of a pool agree with the notes in the end.
-/

namespace MappingSweep

variable {σ α β ν : Type}

/-- The thread with the number `i` keeps the invariant from a note of its own on. -/
inductive Thread.Keeps (inv : List ν → σ → Prop) (i : Nat) (post : ν → α → Prop) :
    ν → Thread σ α → Prop
  | ended {note : ν} {x : α} (hpost : post note x) : Keeps inv i post note (.ended x)
  | step {note : ν} {change : σ → σ} {next : σ → Thread σ α} (noted : σ → ν)
      (hinv : ∀ notes s, notes[i]? = some note → inv notes s →
        inv (notes.set i (noted s)) (change s))
      (hnext : ∀ notes s, notes[i]? = some note → inv notes s →
        Keeps inv i post (noted s) (next s)) : Keeps inv i post note (.step change next)

namespace Thread

variable {inv : List ν → σ → Prop} {i : Nat} {post : ν → α → Prop} {note : ν}

theorem Keeps.mono {post' : ν → α → Prop} {t : Thread σ α} (h : t.Keeps inv i post note)
    (hpost : ∀ note x, post note x → post' note x) : t.Keeps inv i post' note := by
  induction h with
  | ended hx => exact .ended (hpost _ _ hx)
  | step noted hinv _ ih => exact .step noted hinv ih

theorem Keeps.andThen {mid : ν → β → Prop} {t : Thread σ β} {f : β → Thread σ α}
    (h : t.Keeps inv i mid note) (hf : ∀ note x, mid note x → (f x).Keeps inv i post note) :
    (t.andThen f).Keeps inv i post note := by
  induction h with
  | ended hx => exact hf _ _ hx
  | step noted hinv _ ih => exact .step noted hinv ih

/-- A thread that runs with nothing in between keeps the invariant. -/
theorem Keeps.run {t : Thread σ α} (h : t.Keeps inv i post note) {notes : List ν} {s : σ}
    (hnote : notes[i]? = some note) (hinv : inv notes s) :
    ∃ last, inv (notes.set i last) (t.run s).2 ∧ post last (t.run s).1 := by
  induction h generalizing notes s with
  | ended hx =>
    refine ⟨_, ?_, hx⟩
    obtain ⟨hlt, hget⟩ := List.getElem?_eq_some_iff.mp hnote
    rw [← hget, List.set_getElem_self]
    exact hinv
  | step noted hstep _ ih =>
    have hlt : i < notes.length := (List.getElem?_eq_some_iff.mp hnote).1
    obtain ⟨last, hlast, hpost⟩ := ih notes s hnote hinv
      (List.getElem?_set_self hlt) (hstep notes s hnote hinv)
    rw [List.set_set] at hlast
    exact ⟨last, hlast, hpost⟩

end Thread

namespace Task

variable {ε ε' : Type} {inv : List ν → σ → Prop} {i : Nat} {note : ν}

/-- A task keeps the invariant, and ends well or badly as said. -/
def Keeps (inv : List ν → σ → Prop) (i : Nat) (good : ν → α → Prop) (bad : ν → ε → Prop)
    (note : ν) (t : Task ε σ α) : Prop :=
  Thread.Keeps inv i (fun note r => match r with
    | .ok x => good note x
    | .error e => bad note e) note t.run

variable {good : ν → α → Prop} {bad : ν → ε → Prop}

theorem keeps_pure {x : α} (h : good note x) : Keeps inv i good bad note (pure x : Task ε σ α) :=
  .ended h

theorem Keeps.bind {mid : ν → β → Prop} {t : Task ε σ β} {f : β → Task ε σ α}
    (h : Keeps inv i mid bad note t)
    (hf : ∀ note x, mid note x → Keeps inv i good bad note (f x)) :
    Keeps inv i good bad note (t >>= f) := by
  apply Thread.Keeps.andThen h
  intro note r hr
  cases r with
  | ok x => exact hf note x hr
  | error e => exact .ended hr

theorem Keeps.mono {good' : ν → α → Prop} {bad' : ν → ε → Prop} {t : Task ε σ α}
    (h : Keeps inv i good bad note t) (hgood : ∀ note x, good note x → good' note x)
    (hbad : ∀ note e, bad note e → bad' note e) : Keeps inv i good' bad' note t := by
  apply Thread.Keeps.mono h
  intro note r hr
  cases r with
  | ok x => exact hgood note x hr
  | error e => exact hbad note e hr

theorem Keeps.mapError {bad' : ν → ε' → Prop} {t : Task ε σ α} {f : ε → ε'}
    (h : Keeps inv i good bad note t) (hf : ∀ note e, bad note e → bad' note (f e)) :
    Keeps inv i good bad' note (t.mapError f) := by
  apply Thread.Keeps.andThen h
  intro note r hr
  cases r with
  | ok x => exact .ended hr
  | error e => exact .ended (hf note e hr)

end Task

/-- An action as one step of a task. -/
theorem Action.keeps_task {ε : Type} {inv : List ν → σ → Prop} {i : Nat} {note : ν}
    {good : ν → α → Prop} {bad : ν → ε → Prop} {a : Action ε σ α} (noted : σ → ν)
    (hinv : ∀ notes s, notes[i]? = some note → inv notes s → inv (notes.set i (noted s)) (a s).2)
    (hpost : ∀ notes s, notes[i]? = some note → inv notes s → match (a s).1 with
      | .ok x => good (noted s) x
      | .error e => bad (noted s) e) :
    Task.Keeps inv i good bad note a.task :=
  .step noted hinv fun notes s hnote hs => .ended (hpost notes s hnote hs)

/-- An action that leaves the notes as they are. -/
theorem Action.keeps_task_of_same {ε : Type} {inv : List ν → σ → Prop} {i : Nat} {note : ν}
    {good : ν → α → Prop} {bad : ν → ε → Prop} {a : Action ε σ α}
    (hinv : ∀ notes s, notes[i]? = some note → inv notes s → inv notes (a s).2)
    (hpost : ∀ notes s, notes[i]? = some note → inv notes s → match (a s).1 with
      | .ok x => good note x
      | .error e => bad note e) :
    Task.Keeps inv i good bad note a.task := by
  apply Action.keeps_task (fun _ => note) _ hpost
  intro notes s hnote hs
  obtain ⟨hlt, hget⟩ := List.getElem?_eq_some_iff.mp hnote
  rw [← hget, List.set_getElem_self]
  exact hinv notes s hnote hs

/-! ## Pools -/

theorem getElem?_set_cases {α : Type} {xs : List α} {i j : Nat} {x y : α}
    (h : (xs.set i x)[j]? = some y) : (j = i ∧ x = y) ∨ (j ≠ i ∧ xs[j]? = some y) := by
  by_cases hj : i = j
  · subst hj
    rw [List.getElem?_set, if_pos rfl] at h
    split at h
    · exact .inl ⟨rfl, Option.some.inj h⟩
    · cases h
  · rw [List.getElem?_set_ne hj] at h
    exact .inr ⟨Ne.symm hj, h⟩

namespace Pool

/-- All threads of a pool keep the invariant, each with its own result, and it holds. -/
structure Sound (inv : List ν → σ → Prop) (post : Nat → ν → α → Prop) (notes : List ν)
    (p : Pool σ α) : Prop where
  holds : inv notes p.state
  length : notes.length = p.threads.length
  keeps : ∀ i note t, notes[i]? = some note → p.threads[i]? = some t →
    Thread.Keeps inv i (post i) note t

variable {inv : List ν → σ → Prop} {post : Nat → ν → α → Prop} {notes : List ν} {p : Pool σ α}

theorem Sound.advance (h : Sound inv post notes p) (i : Nat) :
    ∃ notes', Sound inv post notes' (p.advance i) := by
  unfold Pool.advance
  split
  · rename_i change next hthread
    have hlt : i < notes.length := by
      rw [h.length]
      exact (List.getElem?_eq_some_iff.mp hthread).1
    have hnote : notes[i]? = some notes[i] := List.getElem?_eq_getElem hlt
    cases h.keeps i notes[i] _ hnote hthread with
    | step noted hinv hnext =>
      refine ⟨notes.set i (noted p.state), hinv notes p.state hnote h.holds, ?_, ?_⟩
      · rw [List.length_set, List.length_set]
        exact h.length
      · intro j note t hj ht
        by_cases hij : i = j
        · subst hij
          rw [List.getElem?_set_self hlt] at hj
          rw [List.getElem?_set_self (h.length ▸ hlt)] at ht
          cases hj
          cases ht
          exact hnext notes p.state hnote h.holds
        · rw [List.getElem?_set_ne hij] at hj ht
          exact h.keeps j note t hj ht
  · exact ⟨notes, h⟩

variable {background : σ → σ}

theorem Sound.take (h : Sound inv post notes p)
    (hbackground : ∀ notes s, inv notes s → inv notes (background s)) (turn : Turn) :
    ∃ notes', Sound inv post notes' (p.take background turn) := by
  cases turn with
  | thread i => exact h.advance i
  | background => exact ⟨notes, hbackground _ _ h.holds, h.length, h.keeps⟩

theorem Sound.play (h : Sound inv post notes p)
    (hbackground : ∀ notes s, inv notes s → inv notes (background s)) (turns : List Turn) :
    ∃ notes', Sound inv post notes' (p.play background turns) := by
  induction turns generalizing notes p with
  | nil => exact ⟨notes, h⟩
  | cons turn turns ih =>
    obtain ⟨notes', h'⟩ := h.take hbackground turn
    exact ih h'

/-- Threads from the number `i` on, run one after the other. -/
theorem exists_runAll {ts : List (Thread σ α)} (i : Nat) {s : σ} (hinv : inv notes s)
    (hlength : i + ts.length = notes.length)
    (hkeeps : ∀ j note t, notes[i + j]? = some note → ts[j]? = some t →
      Thread.Keeps inv (i + j) (post (i + j)) note t) :
    ∃ notes', inv notes' (Thread.runAll ts s).2 ∧ notes'.length = notes.length ∧
      notes'.take i = notes.take i ∧
      ∀ j note x, notes'[i + j]? = some note → (Thread.runAll ts s).1[j]? = some x →
        post (i + j) note x := by
  induction ts generalizing i notes s with
  | nil => exact ⟨notes, hinv, rfl, rfl, fun j note x _ hx => by simp [Thread.runAll] at hx⟩
  | cons t ts ih =>
    rw [List.length_cons] at hlength
    have hlt : i < notes.length := by omega
    have hnote : notes[i]? = some notes[i] := List.getElem?_eq_getElem hlt
    obtain ⟨last, hlast, hpost⟩ := (hkeeps 0 notes[i] t hnote rfl).run hnote hinv
    obtain ⟨notes', hinv', hlength', htake, hposts⟩ := ih (i + 1) hlast
      (by rw [List.length_set]; omega) (by
        intro j note t' hj ht'
        rw [Nat.add_right_comm, Nat.add_assoc] at hj ⊢
        rw [List.getElem?_set_ne (by omega)] at hj
        exact hkeeps (j + 1) note t' hj ht')
    have hfirst : notes'[i]? = some last := by
      have hget := congrArg (·[i]?) htake
      simp only [List.getElem?_take, Nat.lt_add_one, if_true] at hget
      rw [hget, Nat.add_zero, List.getElem?_set_self hlt]
    refine ⟨notes', hinv', by rw [hlength', List.length_set], ?_, ?_⟩
    · have hshort := congrArg (List.take i) htake
      rw [List.take_take, List.take_take, Nat.min_eq_left (Nat.le_succ i)] at hshort
      rw [hshort, Nat.add_zero, List.take_set_of_le (Nat.le_refl i)]
    · intro j note x hj hx
      cases j with
      | zero =>
        rw [Nat.add_zero, hfirst] at hj
        cases hj
        cases hx
        exact hpost
      | succ j =>
        have hshift : i + (j + 1) = i + 1 + j := by omega
        rw [hshift] at hj ⊢
        exact hposts j note x hj hx

theorem length_runAll (ts : List (Thread σ α)) (s : σ) :
    (Thread.runAll ts s).1.length = ts.length := by
  induction ts generalizing s with
  | nil => rfl
  | cons t ts ih => exact congrArg (· + 1) (ih _)

/-- All turns and all that is left keep the invariant, and the results agree with the notes. -/
theorem Sound.finish (h : Sound inv post notes p)
    (hbackground : ∀ notes s, inv notes s → inv notes (background s)) (turns : List Turn) :
    ∃ notes', inv notes' (p.finish background turns).2 ∧
      notes'.length = (p.finish background turns).1.length ∧
      ∀ i note x, notes'[i]? = some note → (p.finish background turns).1[i]? = some x →
        post i note x := by
  obtain ⟨mid, hmid⟩ := h.play hbackground turns
  obtain ⟨notes', hinv, hlength, -, hpost⟩ := exists_runAll 0 hmid.holds
    (by rw [Nat.zero_add, hmid.length]) (by simpa only [Nat.zero_add] using hmid.keeps)
  simp only [Nat.zero_add] at hpost
  refine ⟨notes', hinv, ?_, hpost⟩
  rw [hlength, hmid.length]
  exact (length_runAll _ _).symm

theorem length_threads_take (p : Pool σ α) (turn : Turn) :
    (p.take background turn).threads.length = p.threads.length := by
  cases turn with
  | background => rfl
  | thread i =>
    simp only [Pool.take, Pool.advance]
    split
    · exact List.length_set
    · rfl

theorem length_finish (background : σ → σ) (p : Pool σ α) (turns : List Turn) :
    (p.finish background turns).1.length = p.threads.length := by
  unfold Pool.finish
  dsimp only
  rw [length_runAll]
  induction turns generalizing p with
  | nil => rfl
  | cons turn turns ih => exact (ih (p.take background turn)).trans (length_threads_take p turn)

end Pool
end MappingSweep
