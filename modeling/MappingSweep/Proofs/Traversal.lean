import Mathlib.Data.List.Forall2

/-!
# Going through a list

Something that can fail is done with each element of a list in turn.  Either it succeeds with all of
them, or the first one with which it fails gives the error.  Elements may be numbered first.
-/

namespace MappingSweep

variable {ε α β : Type} {f : α → Except ε β} {xs : List α} {ys : List β}

theorem mapM_eq_ok_iff : xs.mapM f = .ok ys ↔ List.Forall₂ (fun x y => f x = .ok y) xs ys := by
  induction xs generalizing ys with
  | nil =>
    rw [List.forall₂_nil_left_iff]
    exact ⟨fun h => (Except.ok.inj h).symm, fun h => h ▸ rfl⟩
  | cons x xs ih =>
    rw [List.mapM_cons, List.forall₂_cons_left_iff]
    cases hx : f x with
    | error e => simp [bind, Except.bind]
    | ok y =>
      cases hxs : xs.mapM f with
      | error e => simp [bind, Except.bind, ← ih, hxs]
      | ok rest => simp [bind, Except.bind, pure, Except.pure, ← ih, hxs, eq_comm]

theorem length_of_mapM (h : xs.mapM f = .ok ys) : ys.length = xs.length :=
  (mapM_eq_ok_iff.mp h).length_eq.symm

theorem getElem?_of_mapM (h : xs.mapM f = .ok ys) {k : Nat} {x : α} (hx : xs[k]? = some x) :
    ∃ y, ys[k]? = some y ∧ f x = .ok y := by
  obtain ⟨hk, rfl⟩ := List.getElem?_eq_some_iff.mp hx
  have hk' : k < ys.length := by rwa [length_of_mapM h]
  exact ⟨ys[k], List.getElem?_eq_getElem hk', (mapM_eq_ok_iff.mp h).get hk hk'⟩

theorem exists_mapM (h : ∀ x ∈ xs, ∃ y, f x = .ok y) : ∃ ys, xs.mapM f = .ok ys := by
  induction xs with
  | nil => exact ⟨[], rfl⟩
  | cons x xs ih =>
    obtain ⟨y, hy⟩ := h x List.mem_cons_self
    obtain ⟨ys, hys⟩ := ih fun other hother => h other (List.mem_cons_of_mem _ hother)
    refine ⟨y :: ys, ?_⟩
    rw [List.mapM_cons, hy, hys]
    rfl

theorem mapM_append_cons_eq_error {before after : List α} {x : α} {e : ε}
    (hbefore : ∀ b ∈ before, ∃ y, f b = .ok y) (hx : f x = .error e) :
    (before ++ x :: after).mapM f = .error e := by
  obtain ⟨ys, hys⟩ := exists_mapM hbefore
  rw [List.mapM_append, hys, List.mapM_cons, hx]
  rfl

theorem mapM_eq_error_iff {e : ε} :
    xs.mapM f = .error e ↔ ∃ before x after, xs = before ++ x :: after ∧
      (∀ b ∈ before, ∃ y, f b = .ok y) ∧ f x = .error e := by
  refine ⟨fun h => ?_, ?_⟩
  · induction xs with
    | nil => cases h
    | cons x xs ih =>
      rw [List.mapM_cons] at h
      cases hx : f x with
      | error e' =>
        rw [hx] at h
        obtain rfl : e' = e := Except.error.inj h
        exact ⟨[], x, xs, rfl, by simp, hx⟩
      | ok y =>
        rw [hx] at h
        cases hxs : xs.mapM f with
        | ok ys => rw [hxs] at h; cases h
        | error e' =>
          rw [hxs] at h
          obtain rfl : e' = e := Except.error.inj h
          obtain ⟨before, z, after, rfl, hbefore, hz⟩ := ih hxs
          exact ⟨x :: before, z, after, rfl, List.forall_mem_cons.mpr ⟨⟨y, hx⟩, hbefore⟩, hz⟩
  · rintro ⟨before, x, after, rfl, hbefore, hx⟩
    exact mapM_append_cons_eq_error hbefore hx

theorem mapM_eq_some_map {f : α → Option β} {g : α → β}
    (h : ∀ x ∈ xs, f x = some (g x)) : xs.mapM f = some (xs.map g) := by
  induction xs with
  | nil => rfl
  | cons x xs ih =>
    rw [List.mapM_cons, h x List.mem_cons_self, ih fun x hx => h x (List.mem_cons_of_mem _ hx)]
    rfl

section Numbered

variable {read : α × Nat → Except ε β} {fits : α → β → Prop} {n : Nat}

theorem mapM_zipIdx_eq_ok_iff (h : ∀ x k y, read (x, k) = .ok y ↔ fits x y) :
    (xs.zipIdx n).mapM read = .ok ys ↔ List.Forall₂ fits xs ys := by
  have hfits : (fun p y => read p = .ok y) = fun p y => fits p.1 y := by
    funext p y
    exact propext (h p.1 p.2 y)
  rw [mapM_eq_ok_iff, hfits, ← List.forall₂_map_left_iff, List.zipIdx_map_fst]

theorem mapM_zipIdx_eq_error_iff (h : ∀ x k y, read (x, k) = .ok y ↔ fits x y) {e : ε} :
    (xs.zipIdx n).mapM read = .error e ↔ ∃ before x after, xs = before ++ x :: after ∧
      (∀ b ∈ before, ∃ y, fits b y) ∧ read (x, before.length + n) = .error e := by
  rw [mapM_eq_error_iff]
  constructor
  · rintro ⟨front, p, back, heq, hfront, hp⟩
    obtain ⟨before, rest, rfl, rfl, hrest⟩ := List.zipIdx_eq_append_iff.mp heq
    obtain ⟨x, after, rfl, rfl, -⟩ := List.zipIdx_eq_cons_iff.mp hrest.symm
    refine ⟨before, x, after, rfl, fun b hb => ?_, Nat.add_comm n _ ▸ hp⟩
    obtain ⟨i, hi, rfl⟩ := List.mem_iff_getElem.mp hb
    have hmem : (before[i], n + i) ∈ before.zipIdx n :=
      List.mk_add_mem_zipIdx_iff_getElem?.mpr (List.getElem?_eq_getElem hi)
    obtain ⟨y, hy⟩ := hfront _ hmem
    exact ⟨y, (h _ _ y).mp hy⟩
  · rintro ⟨before, x, after, rfl, hbefore, hx⟩
    refine ⟨before.zipIdx n, (x, before.length + n), after.zipIdx (n + before.length + 1), ?_,
      fun p hp => ?_, hx⟩
    · rw [List.zipIdx_append, List.zipIdx_cons, Nat.add_comm n]
    · obtain ⟨y, hy⟩ := hbefore p.1 (List.fst_mem_of_mem_zipIdx hp)
      exact ⟨y, (h p.1 p.2 y).mpr hy⟩

end Numbered

end MappingSweep
