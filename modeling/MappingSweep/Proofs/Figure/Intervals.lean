import Mathlib.Algebra.GroupWithZero.Nat
import Mathlib.Data.List.Sort
import MappingSweep.Figure.Bars

/-!
# Bars of intervals

Counting intervals one after the other keeps the entries below the cap in rising order, with one
entry for each value that has come so far and the number of times it has, next to the number of the
intervals from the cap on.  What is counted in this way is the same in whatever order the intervals
came, and together the entries and the number count every interval once.
-/

namespace MappingSweep
namespace Bars

section Frequencies

variable {α : Type} [LT α] [DecidableEq α] [DecidableLT α] {u v : α} {n : Nat}
  {entries entries' : List (α × Nat)} {values values' : List α}

def Rising (entries : List (α × Nat)) : Prop :=
  entries.Pairwise fun e e' => e.1 < e'.1

/-- One entry for each value that occurs, in rising order, with the number of its occurrences. -/
structure Counts (values : List α) (entries : List (α × Nat)) : Prop where
  rising : Rising entries
  mem_iff : ∀ v n, (v, n) ∈ entries ↔ v ∈ values ∧ n = values.count v

omit [DecidableLT α] in
theorem Counts.of_perm (h : Counts values entries) (hperm : values.Perm values') :
    Counts values' entries where
  rising := h.rising
  mem_iff v n := by rw [h.mem_iff, hperm.mem_iff, hperm.count_eq]

def total (entries : List (α × Nat)) : Nat :=
  (entries.map Prod.snd).sum

theorem total_addOccurrence (v : α) (entries : List (α × Nat)) :
    total (addOccurrence v entries) = total entries + 1 := by
  unfold total
  fun_induction addOccurrence v entries with
  | case1 => rfl
  | case2 n rest =>
    simp only [List.map_cons, List.sum_cons]
    omega
  | case3 w n rest => exact Nat.add_comm 1 _
  | case4 w n rest _ _ ih =>
    simp only [List.map_cons, List.sum_cons, ih]
    omega

theorem mem_addOccurrence_of_ne (h : u ≠ v) (entries : List (α × Nat)) :
    (u, n) ∈ addOccurrence v entries ↔ (u, n) ∈ entries := by
  fun_induction addOccurrence v entries with
  | case1 => simp [h]
  | case2 n rest => simp [h]
  | case3 w n rest => simp [h]
  | case4 w n rest _ _ ih => rw [List.mem_cons, ih, List.mem_cons]

theorem exists_of_mem_addOccurrence {e : α × Nat} (h : e ∈ addOccurrence v entries) :
    e.1 = v ∨ e ∈ entries := by
  obtain ⟨u, n⟩ := e
  by_cases hu : u = v
  · exact .inl hu
  · exact .inr ((mem_addOccurrence_of_ne hu entries).mp h)

variable [LE α] [Std.IsLinearOrder α] [Std.LawfulOrderLT α]

theorem rising_addOccurrence (v : α) (h : Rising entries) : Rising (addOccurrence v entries) := by
  unfold Rising at h ⊢
  fun_induction addOccurrence v entries with
  | case1 => exact List.pairwise_singleton ..
  | case2 n rest => exact List.pairwise_cons.mpr (List.pairwise_cons.mp h)
  | case3 w n rest _ hlt =>
    refine List.pairwise_cons.mpr ⟨fun e he => ?_, h⟩
    rcases List.mem_cons.mp he with rfl | he
    · exact hlt
    · exact Std.lt_trans hlt ((List.pairwise_cons.mp h).1 e he)
  | case4 w n rest hne hnlt ih =>
    obtain ⟨hfirst, hrest⟩ := List.pairwise_cons.mp h
    refine List.pairwise_cons.mpr ⟨fun e he => ?_, ih hrest⟩
    rcases exists_of_mem_addOccurrence he with heq | he
    · rw [heq]
      exact Std.lt_of_le_of_ne (Std.not_lt.mp hnlt) (Ne.symm hne)
    · exact hfirst e he

omit [DecidableEq α] [DecidableLT α] [Std.IsLinearOrder α] in
theorem not_mem_of_forall_lt {entries : List (α × Nat)} (h : ∀ e ∈ entries, v < e.1) (k : Nat) :
    (v, k) ∉ entries :=
  fun hk => Std.lt_irrefl (h (v, k) hk)

/-- Whatever number of occurrences the entries tell, it becomes one more. -/
theorem mem_addOccurrence_self {c : Nat} (h : Rising entries)
    (hc : ∀ k, (v, k) ∈ entries ↔ 0 < k ∧ k = c) :
    (v, n) ∈ addOccurrence v entries ↔ n = c + 1 := by
  have hnone : (∀ k, (v, k) ∉ entries) → c = 0 := fun habsent =>
    Nat.eq_zero_of_not_pos fun hpos => habsent c ((hc c).mpr ⟨hpos, rfl⟩)
  unfold Rising at h
  -- behind an entry of another value there are just as many occurrences, so `c` stays the same
  fun_induction addOccurrence v entries with
  | case1 => simp [hnone fun _ => List.not_mem_nil]
  | case2 k rest =>
    obtain ⟨-, rfl⟩ := (hc k).mp List.mem_cons_self
    simp [not_mem_of_forall_lt (List.pairwise_cons.mp h).1]
  | case3 w k rest _ hlt =>
    have habsent : ∀ j, (v, j) ∉ (w, k) :: rest := not_mem_of_forall_lt fun e he => by
      rcases List.mem_cons.mp he with rfl | he
      · exact hlt
      · exact Std.lt_trans hlt ((List.pairwise_cons.mp h).1 e he)
    rw [List.mem_cons, Prod.mk.injEq, hnone habsent]
    simp [habsent]
  | case4 w k rest hne _ ih =>
    have hskip : ∀ j, (v, j) ∈ (w, k) :: rest ↔ (v, j) ∈ rest := by simp [hne]
    simp only [hskip] at hc hnone
    have hrest : (v, n) ∈ addOccurrence v rest ↔ n = c + 1 :=
      ih (List.pairwise_cons.mp h).2 hc hnone
    rw [List.mem_cons, hrest]
    simp [hne]

theorem Counts.addOccurrence (h : Counts values entries) (v : α) :
    Counts (v :: values) (addOccurrence v entries) where
  rising := rising_addOccurrence v h.rising
  mem_iff u n := by
    by_cases hu : u = v
    · subst hu
      have hc : ∀ k, (u, k) ∈ entries ↔ 0 < k ∧ k = values.count u := by
        intro k
        rw [h.mem_iff]
        refine and_congr_left ?_
        rintro rfl
        exact List.count_pos_iff.symm
      rw [mem_addOccurrence_self h.rising hc, List.count_cons_self]
      simp
    · rw [mem_addOccurrence_of_ne hu, h.mem_iff, List.mem_cons, List.count_cons_of_ne (Ne.symm hu)]
      simp [hu]

omit [DecidableLT α] in
/-- Entries in rising order are known by what they hold. -/
theorem Counts.unique (h : Counts values entries) (h' : Counts values entries') :
    entries = entries' := by
  have hirrefl : Std.Irrefl fun e e' : α × Nat => e.1 < e'.1 := ⟨fun _ => Std.lt_irrefl⟩
  have hantisymm : Std.Antisymm fun e e' : α × Nat => e.1 < e'.1 :=
    ⟨fun _ _ hlt hgt => absurd (Std.lt_trans hlt hgt) Std.lt_irrefl⟩
  exact h.rising.eq_of_mem_iff h'.rising fun ⟨v, n⟩ => (h.mem_iff v n).trans (h'.mem_iff v n).symm

end Frequencies

/-! ## Intervals -/

section Intervals

variable {cap : UInt64} {seen others values : List UInt64} {counted : List (UInt64 × Nat) × Nat}

/-- What is counted when the intervals have come so far. -/
structure Counted (cap : UInt64) (seen : List UInt64) (counted : List (UInt64 × Nat) × Nat) :
    Prop where
  below : Counts (seen.filter (· < cap)) counted.1
  capped : counted.2 = seen.countP (cap ≤ ·)
  all : total counted.1 + counted.2 = seen.length

theorem Counted.step (h : Counted cap seen counted) (v : UInt64) :
    Counted cap (v :: seen) (countInterval cap counted v) := by
  obtain ⟨hbelow, hcapped, hall⟩ := h
  unfold countInterval
  split
  · rename_i hle
    have hnot : ¬ v < cap := UInt64.not_lt.mpr hle
    refine ⟨?_, ?_, ?_⟩
    · rw [List.filter_cons_of_neg (by simpa using hnot)]
      exact hbelow
    · rw [List.countP_cons_of_pos (by simpa using hle), hcapped]
    · rw [List.length_cons, ← hall, Nat.add_assoc]
  · rename_i hnot
    have hlt : v < cap := UInt64.not_le.mp hnot
    refine ⟨?_, ?_, ?_⟩
    · rw [List.filter_cons_of_pos (by simpa using hlt)]
      exact hbelow.addOccurrence v
    · rw [List.countP_cons_of_neg (by simpa using hnot), hcapped]
    · rw [total_addOccurrence, List.length_cons, ← hall]
      exact Nat.add_right_comm _ _ _

theorem Counted.of_perm (h : Counted cap others counted) (hperm : others.Perm values) :
    Counted cap values counted where
  below := h.below.of_perm (hperm.filter _)
  capped := h.capped.trans (hperm.countP_eq _)
  all := h.all.trans hperm.length_eq

theorem Counted.run (h : Counted cap seen counted) (values : List UInt64) :
    Counted cap (values ++ seen) (values.foldl (countInterval cap) counted) := by
  -- each step puts its value in front of those seen, which is the order up to a permutation
  induction values generalizing seen counted with
  | nil => exact h
  | cons v values ih => exact (ih (h.step v)).of_perm List.perm_middle

theorem counted_countIntervals (cap : UInt64) (values : List UInt64) :
    Counted cap values (countIntervals cap values) := by
  have hnone : Counted cap [] ([], 0) := ⟨⟨List.Pairwise.nil, by simp⟩, rfl, rfl⟩
  have hrun := hnone.run values
  rwa [List.append_nil] at hrun

theorem Counted.unique {counted' : List (UInt64 × Nat) × Nat} (h : Counted cap values counted)
    (h' : Counted cap values counted') : counted = counted' :=
  Prod.ext (h.below.unique h'.below) (h.capped.trans h'.capped.symm)

theorem countIntervals_of_perm (h : others.Perm values) :
    countIntervals cap others = countIntervals cap values :=
  ((counted_countIntervals cap others).of_perm h).unique (counted_countIntervals cap values)

theorem Counted.mem_iff (h : Counted cap values counted) {v : UInt64} {n : Nat} :
    (v, n) ∈ counted.1 ↔ v < cap ∧ v ∈ values ∧ n = values.count v := by
  rw [h.below.mem_iff, List.mem_filter, decide_eq_true_iff, and_comm (a := v ∈ values), and_assoc]
  refine and_congr_right fun hlt => ?_
  rw [List.count_filter (p := (· < cap)) (decide_eq_true hlt)]

/-- The last bar, which stands for all intervals from the cap on. -/
def CapsAt (cap : UInt64) (values : List UInt64) (bars : List Bar) : Prop :=
  ((∃ v ∈ values, cap ≤ v) ∧ bars = [⟨">=" ++ wordLabel cap, values.countP (cap ≤ ·)⟩]) ∨
    (∀ v ∈ values, v < cap) ∧ bars = []

theorem capsAt_capBar (cap : UInt64) (values : List UInt64) :
    CapsAt cap values (capBar cap (values.countP (cap ≤ ·))) := by
  unfold capBar
  split
  · rename_i hzero
    refine .inr ⟨fun v hv => ?_, rfl⟩
    simpa using List.countP_eq_zero.mp hzero v hv
  · rename_i hcount
    refine .inl ⟨?_, rfl⟩
    simpa using List.countP_pos_iff.mp (Nat.pos_of_ne_zero hcount)

theorem sum_counts_capBar (cap : UInt64) (n : Nat) : ((capBar cap n).map Bar.count).sum = n := by
  unfold capBar
  split
  · rename_i hzero
    exact hzero.symm
  · exact Nat.add_zero n

theorem sum_counts_ofIntervals (cap : UInt64) (values : List UInt64) :
    ((ofIntervals cap values).map Bar.count).sum = values.length := by
  rw [ofIntervals, List.map_append, List.sum_append, sum_counts_capBar, List.map_map,
    ← (counted_countIntervals cap values).all]
  rfl

theorem ofIntervals_of_perm (h : others.Perm values) :
    ofIntervals cap others = ofIntervals cap values := by
  rw [ofIntervals, ofIntervals, countIntervals_of_perm h]

/-- Below the cap there is one bar for each value that occurs and for no other, by rising values,
and it counts the occurrences.  All other intervals share a last bar, which is there if there are
any.  So each interval is counted once, and the order of the intervals makes no difference. -/
theorem bars_of_intervals (cap : UInt64) (values : List UInt64) :
    ∃ entries last, ofIntervals cap values =
        entries.map (fun e => ⟨wordLabel e.1, e.2⟩) ++ last ∧
      Rising entries ∧
      (∀ v n, (v, n) ∈ entries ↔ v < cap ∧ v ∈ values ∧ n = values.count v) ∧
      CapsAt cap values last ∧
      ((ofIntervals cap values).map Bar.count).sum = values.length ∧
      ∀ others, others.Perm values → ofIntervals cap others = ofIntervals cap values := by
  have hcounted := counted_countIntervals cap values
  exact ⟨(countIntervals cap values).1, capBar cap (countIntervals cap values).2, rfl,
    hcounted.below.rising, fun _ _ => hcounted.mem_iff, hcounted.capped ▸ capsAt_capBar cap values,
    sum_counts_ofIntervals cap values, fun _ => ofIntervals_of_perm⟩

/-- Short intervals, one of which comes twice, and two long ones. -/
def mixedIntervals : List UInt64 :=
  [3, 1, 3, 400, 1000, 7]

theorem bars_of_intervals_mixedIntervals :
    [400, 7, 3, 1, 1000, 3].Perm mixedIntervals ∧
      ofIntervals intervalCap [400, 7, 3, 1, 1000, 3] =
        [⟨"1", 1⟩, ⟨"3", 2⟩, ⟨"7", 1⟩, ⟨">=400", 2⟩] ∧
      (∃ v ∈ mixedIntervals, 0 ≤ v) ∧ ofIntervals 0 [400, 7, 3, 1, 1000, 3] = [⟨">=0", 6⟩] := by
  have hperm : [400, 7, 3, 1, 1000, 3].Perm mixedIntervals := by decide
  obtain ⟨_, _, -, -, -, -, -, hothers⟩ := bars_of_intervals intervalCap mixedIntervals
  obtain ⟨_, _, -, -, -, -, -, hothersZero⟩ := bars_of_intervals 0 mixedIntervals
  rw [hothers _ hperm, hothersZero _ hperm]
  exact ⟨hperm, by decide +kernel, ⟨3, by decide, by decide⟩, by decide +kernel⟩

end Intervals
end Bars
end MappingSweep
