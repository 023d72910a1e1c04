import Mathlib.Data.List.Forall2
import MappingSweep.Proofs.Isolation

/-!
# Threads that leave each other alone

A thread whose part of the state no other thread changes does on the common state what it does on a
state of its own.  What counts as its part may change with every step, so the two states are related
by a relation for each point of the thread.  In a pool of such threads each ends as it does by
itself, whatever turns they take.
-/

namespace MappingSweep

variable {σ α ι : Type}

/-- Among steps of others the first thread does what the second does on a state of its own.  The
relation holds of the common state and the state of its own until the next step of the thread. -/
inductive Thread.Mirrors (others moves : σ → σ → Prop) (post : α × σ → α × σ → Prop) :
    (σ → σ → Prop) → Thread σ α → Thread σ α → Prop
  | ended {alike : σ → σ → Prop} {x y : α}
      (hothers : ∀ s s' g, alike s g → others s s' → alike s' g)
      (hpost : ∀ s g, alike s g → post (x, s) (y, g)) :
      Mirrors others moves post alike (.ended x) (.ended y)
  | step {alike : σ → σ → Prop} {change own : σ → σ} {next rest : σ → Thread σ α}
      (after : σ → σ → σ → σ → Prop)
      (hothers : ∀ s s' g, alike s g → others s s' → alike s' g)
      (hmoves : ∀ s g, alike s g → moves s (change s))
      (hafter : ∀ s g, alike s g → after s g (change s) (own g))
      (hnext : ∀ s g, alike s g → Mirrors others moves post (after s g) (next s) (rest g)) :
      Mirrors others moves post alike (.step change next) (.step own rest)

namespace Thread

variable {alike others moves : σ → σ → Prop} {post : α × σ → α × σ → Prop} {t u : Thread σ α}

theorem Mirrors.stable (h : t.Mirrors others moves post alike u) :
    ∀ s s' g, alike s g → others s s' → alike s' g := by
  cases h with
  | ended hothers _ => exact hothers
  | step _ hothers _ _ _ => exact hothers

/-- A thread that cannot tell related states apart does the same on both. -/
theorem Isolated.mirrors (h : t.Isolated alike moves)
    (hothers : ∀ s s' g, alike s g → others s s' → alike s' g)
    (hpost : ∀ x s g, alike s g → post (x, s) (x, g)) : t.Mirrors others moves post alike t := by
  induction h with
  | ended x => exact .ended hothers (hpost x)
  | step halike hmoves hsame _ ih =>
    refine .step (fun _ _ => alike) hothers hmoves halike ?_
    intro s g hs
    rw [hsame s g hs]
    exact ih s g hs

end Thread

/-- What a thread has left to do by itself. -/
structure Mirror (σ α : Type) where
  own : σ
  alike : σ → σ → Prop
  left : Thread σ α

/-- The thread has its part of the common state as it is by itself, and will end as it does by
itself. -/
structure Mirror.Holds (others : σ → σ → Prop) (whole : α × σ) (m : Mirror σ α) (s : σ) : Prop where
  alike : m.alike s m.own
  stable : ∀ s s' g, m.alike s g → others s s' → m.alike s' g
  whole : m.left.run m.own = whole

namespace Pool

variable {labels : List ι} {thread : ι → Thread σ α} {others moves alike : ι → σ → σ → Prop}
  {post : ι → α × σ → α × σ → Prop} {start : σ}

/-- All threads have their parts of the common state as they are by themselves. -/
def Mirrored (others : ι → σ → σ → Prop) (labels : List ι) (thread : ι → Thread σ α) (start : σ)
    (notes : List (Mirror σ α)) (s : σ) : Prop :=
  ∀ (i : Nat) a m, labels[i]? = some a → notes[i]? = some m →
    m.Holds (others a) ((thread a).run start) s

/-- No thread has its part changed by another one. -/
def Apart (others moves : ι → σ → σ → Prop) (labels : List ι) : Prop :=
  labels.Pairwise fun a b => ∀ s s', (moves a s s' → others b s s') ∧ (moves b s s' → others a s s')

theorem Apart.unseen (h : Apart others moves labels) {i j : Nat} {a b : ι}
    (ha : labels[i]? = some a) (hb : labels[j]? = some b) (hne : i ≠ j) {s s' : σ}
    (hmoves : moves a s s') : others b s s' := by
  obtain ⟨hi, rfl⟩ := List.getElem?_eq_some_iff.mp ha
  obtain ⟨hj, rfl⟩ := List.getElem?_eq_some_iff.mp hb
  rcases Nat.lt_or_gt_of_ne hne with hlt | hlt
  · exact (List.pairwise_iff_getElem.mp h i j hi hj hlt s s').1 hmoves
  · exact (List.pairwise_iff_getElem.mp h j i hj hi hlt s s').2 hmoves

theorem keeps_of_mirrors (hapart : Apart others moves labels) {i : Nat} {a : ι}
    (ha : labels[i]? = some a) {alike : σ → σ → Prop} {t u : Thread σ α}
    (h : t.Mirrors (others a) (moves a) (post a) alike u) (own : σ) :
    t.Keeps (Mirrored others labels thread start) i
      (fun m x => ∀ s, m.Holds (others a) ((thread a).run start) s →
        post a (x, s) ((thread a).run start)) ⟨own, alike, u⟩ := by
  induction h generalizing own with
  | ended _ hpost =>
    refine .ended fun s hs => ?_
    rw [← hs.whole]
    exact hpost s own hs.alike
  | @step _ change own' next rest after _ hmoves hafter hnext ih =>
    refine .step (fun s => ⟨own' own, after s own, rest own⟩) ?_ ?_
    · intro notes s hnote hs j b m hb hm
      have hself := hs i a _ ha hnote
      rcases getElem?_set_cases hm with ⟨rfl, rfl⟩ | ⟨hj, hm⟩
      · rw [ha] at hb
        cases hb
        exact ⟨hafter s own hself.alike, (hnext s own hself.alike).stable, hself.whole⟩
      · have hother := hs j b m hb hm
        have hmoved := hapart.unseen ha hb hj.symm (hmoves s own hself.alike)
        exact ⟨hother.stable _ _ _ hother.alike hmoved, hother.stable, hother.whole⟩
    · intro notes s hnote hs
      exact ih s own (hs i a _ ha hnote).alike (own' own)

/-- Whatever turns they take, all threads end as they do by themselves. -/
theorem finish_mirrors (hapart : Apart others moves labels)
    (hstart : ∀ a ∈ labels, alike a start start)
    (h : ∀ a ∈ labels,
      (thread a).Mirrors (others a) (moves a) (post a) (alike a) (thread a)) (turns : List Turn) :
    let finished := Pool.finish id turns ⟨start, labels.map thread⟩
    List.Forall₂ (fun a x => post a (x, finished.2) ((thread a).run start)) labels finished.1 := by
  intro finished
  have hsound : Sound (Mirrored others labels thread start)
      (fun i m x => ∀ a, labels[i]? = some a → ∀ s,
        m.Holds (others a) ((thread a).run start) s → post a (x, s) ((thread a).run start))
      (labels.map fun a => ⟨start, alike a, thread a⟩) ⟨start, labels.map thread⟩ := by
    refine ⟨?_, by simp, ?_⟩
    · intro i a m ha hm
      rw [List.getElem?_map, ha] at hm
      cases hm
      have hmem := List.mem_of_getElem? ha
      exact ⟨hstart a hmem, (h a hmem).stable, rfl⟩
    · intro i m t hm ht
      rw [List.getElem?_map] at hm ht
      cases ha : labels[i]? with
      | none => rw [ha] at hm; cases hm
      | some a =>
        rw [ha] at hm ht
        cases hm
        cases ht
        apply (keeps_of_mirrors hapart ha (h a (List.mem_of_getElem? ha)) start).mono
        intro m x hpost b hb
        cases hb
        exact hpost
  obtain ⟨notes, hnotes, hlength, hpost⟩ := hsound.finish (fun _ _ hs => hs) turns
  have hcount : finished.1.length = labels.length := by
    rw [← List.length_map thread]
    exact length_finish id _ turns
  rw [List.forall₂_iff_get]
  refine ⟨hcount.symm, ?_⟩
  intro i hi hi'
  have ha : labels[i]? = some labels[i] := List.getElem?_eq_getElem hi
  have hlt : i < notes.length := hlength ▸ hi'
  have hnote : notes[i]? = some notes[i] := List.getElem?_eq_getElem hlt
  exact hpost i _ _ hnote (List.getElem?_eq_getElem hi') _ ha _ (hnotes i _ _ ha hnote)

end Pool
end MappingSweep
