import MappingSweep.Log.Latency
import MappingSweep.Proofs.Log.Intervals
import MappingSweep.Proofs.Number.Order

/-!
# The median of a column

Values have one arrangement in the total order, so the median does not depend on the order in which
they came.  What stands before a value in the arrangement is at least all that is less, and what
stands behind it all that is greater, so the middle of the arrangement is a median.
-/

namespace MappingSweep
namespace LatencyStats

open CommandTrace (exists_pair_at)
open Number (Binary64)
open Number.Binary64 (rank_injective rank_lt_of_less totalLE_iff)

variable {a b : Binary64} {k : Nat} {values others xs ys front back : List Binary64}

def Ascending (xs : List Binary64) : Prop :=
  xs.Pairwise fun x y => x.rank ≤ y.rank

instance (xs : List Binary64) : Decidable (Ascending xs) :=
  inferInstanceAs (Decidable (xs.Pairwise _))

theorem Ascending.eq_of_perm (h : Ascending xs) (h' : Ascending ys) (hperm : xs.Perm ys) :
    xs = ys :=
  hperm.eq_of_pairwise (fun _ _ _ _ hle hge => rank_injective (Nat.le_antisymm hle hge)) h h'

theorem sorted_perm (values : List Binary64) : (sorted values).Perm values :=
  List.mergeSort_perm values _

theorem length_sorted (values : List Binary64) : (sorted values).length = values.length :=
  (sorted_perm values).length_eq

theorem ascending_sorted (values : List Binary64) : Ascending (sorted values) := by
  have htrans : ∀ x y z : Binary64, x.totalLE y = true → y.totalLE z = true → x.totalLE z = true :=
    fun x y z hxy hyz => totalLE_iff.mpr (Nat.le_trans (totalLE_iff.mp hxy) (totalLE_iff.mp hyz))
  have htotal : ∀ x y : Binary64, (x.totalLE y || y.totalLE x) = true := fun x y => by
    simpa [totalLE_iff] using Nat.le_total x.rank y.rank
  exact (List.pairwise_mergeSort htrans htotal values).imp totalLE_iff.mp

theorem sorted_of_perm (h : others.Perm values) : sorted others = sorted values :=
  (ascending_sorted others).eq_of_perm (ascending_sorted values)
    ((sorted_perm others).trans (h.trans (sorted_perm values).symm))

/-- At most `k` values come before the first of the two and at most `k` behind the second, both in
the total order and by value. -/
structure Encloses (k : Nat) (values : List Binary64) (a b : Binary64) : Prop where
  before : values.countP (fun v => v.rank < a.rank) ≤ k
  behind : values.countP (fun v => b.rank < v.rank) ≤ k
  less : values.countP (fun v => v.less a) ≤ k
  greater : values.countP (fun v => b.less v) ≤ k

theorem countP_before_le (h : Ascending (front ++ a :: back)) :
    (front ++ a :: back).countP (fun v => v.rank < a.rank) ≤ front.length := by
  have hback : (a :: back).countP (fun v => v.rank < a.rank) = 0 := by
    refine List.countP_eq_zero.mpr fun v hv => ?_
    rw [decide_eq_true_iff, Nat.not_lt]
    rcases List.mem_cons.mp hv with rfl | hv
    · exact Nat.le_refl _
    · exact (List.pairwise_cons.mp (List.pairwise_append.mp h).2.1).1 v hv
  rw [List.countP_append, hback]
  exact List.countP_le_length

theorem countP_behind_le (h : Ascending (front ++ b :: back)) :
    (front ++ b :: back).countP (fun v => b.rank < v.rank) ≤ back.length := by
  obtain ⟨-, -, hfront⟩ := List.pairwise_append.mp h
  have hzero : front.countP (fun v => b.rank < v.rank) = 0 := by
    refine List.countP_eq_zero.mpr fun v hv => ?_
    rw [decide_eq_true_iff, Nat.not_lt]
    exact hfront v hv b List.mem_cons_self
  rw [List.countP_append, hzero, List.countP_cons_of_neg (by simp), Nat.zero_add]
  exact List.countP_le_length

theorem encloses_of_counts (hbefore : values.countP (fun v => v.rank < a.rank) ≤ k)
    (hbehind : values.countP (fun v => b.rank < v.rank) ≤ k) : Encloses k values a b where
  before := hbefore
  behind := hbehind
  less := (List.countP_mono_left fun _ _ h => decide_eq_true (rank_lt_of_less h)).trans hbefore
  greater := (List.countP_mono_left fun _ _ h => decide_eq_true (rank_lt_of_less h)).trans hbehind

theorem Encloses.of_perm (h : Encloses k xs a b) (hperm : xs.Perm values) :
    Encloses k values a b :=
  encloses_of_counts (hperm.countP_eq _ ▸ h.before) (hperm.countP_eq _ ▸ h.behind)

theorem encloses_middle (h : Ascending (front ++ a :: back)) (hfront : front.length ≤ k)
    (hback : back.length ≤ k) : Encloses k (front ++ a :: back) a a :=
  encloses_of_counts ((countP_before_le h).trans hfront) ((countP_behind_le h).trans hback)

theorem encloses_pair (h : Ascending (front ++ a :: b :: back)) (hfront : front.length ≤ k)
    (hback : back.length ≤ k) : Encloses k (front ++ a :: b :: back) a b := by
  have hsplit : front ++ a :: b :: back = (front ++ [a]) ++ b :: back := by simp
  refine encloses_of_counts ((countP_before_le h).trans hfront) ?_
  rw [hsplit] at h ⊢
  exact (countP_behind_le h).trans hback

/-- A median of the values is one of them, if their number is odd, and the mean of two of them that
come next to each other, if it is even. -/
structure IsMedian (values : List Binary64) (median : Float) : Prop where
  odd : values.length % 2 = 1 → ∃ m ∈ values, median = m.toFloat ∧
    Encloses (values.length / 2) values m m
  even : values.length % 2 = 0 → ∃ front a b back, Ascending (front ++ a :: b :: back) ∧
    (front ++ a :: b :: back).Perm values ∧ front.length + 1 = values.length / 2 ∧
    median = (a.toFloat + b.toFloat) / 2.0 ∧ a.rank ≤ b.rank ∧
    Encloses (values.length / 2 - 1) values a b

/-- The value in the middle, with as many values in front of it as behind it. -/
theorem medianOf_of_odd (h : values.length % 2 = 1) : ∃ m ∈ values,
    medianOf values = some m.toFloat ∧ Encloses (values.length / 2) values m m := by
  have hlength := length_sorted values
  have hmiddle : values.length / 2 < (sorted values).length := by omega
  -- the value in the middle is the head of what is left when half of them are taken away
  have hsplit := List.take_append_drop (values.length / 2) (sorted values)
  rw [List.drop_eq_getElem_cons hmiddle] at hsplit
  have hascending := hsplit ▸ ascending_sorted values
  refine ⟨(sorted values)[values.length / 2],
    (sorted_perm values).mem_iff.mp (List.getElem_mem hmiddle), ?_, ?_⟩
  · simp only [medianOf, hlength, h, if_true, List.getElem?_eq_getElem hmiddle, Option.map_some]
  · refine (hsplit ▸ encloses_middle hascending ?_ ?_).of_perm (sorted_perm values)
    · exact List.length_take_le _ _
    · rw [List.length_drop]
      omega

/-- The mean of the two values in the middle. -/
theorem medianOf_of_even (hne : values ≠ []) (h : values.length % 2 = 0) :
    ∃ front a b back, sorted values = front ++ a :: b :: back ∧
      front.length + 1 = values.length / 2 ∧
      medianOf values = some ((a.toFloat + b.toFloat) / 2.0) := by
  have hlength := length_sorted values
  have hpos := List.length_pos_iff.mpr hne
  have hnext : values.length / 2 - 1 + 1 = values.length / 2 := by omega
  obtain ⟨a, ha⟩ : ∃ a, (sorted values)[values.length / 2 - 1]? = some a :=
    ⟨_, List.getElem?_eq_getElem (by omega)⟩
  obtain ⟨b, hb⟩ : ∃ b, (sorted values)[values.length / 2]? = some b :=
    ⟨_, List.getElem?_eq_getElem (by omega)⟩
  obtain ⟨front, back, hsplit, hfront⟩ := exists_pair_at ha (hnext.symm ▸ hb)
  have hodd : ¬ values.length % 2 = 1 := by omega
  refine ⟨front, a, b, back, hsplit, by omega, ?_⟩
  simp only [medianOf, hlength, if_neg hodd, ha, hb, Option.bind_eq_bind, Option.bind_some]

theorem exists_isMedian (hne : values ≠ []) :
    ∃ median, medianOf values = some median ∧ IsMedian values median := by
  rcases Nat.mod_two_eq_zero_or_one values.length with heven | hodd
  · obtain ⟨front, a, b, back, hsplit, hfront, hmedian⟩ := medianOf_of_even hne heven
    have hascending : Ascending (front ++ a :: b :: back) := hsplit ▸ ascending_sorted values
    have hperm : (front ++ a :: b :: back).Perm values := hsplit ▸ sorted_perm values
    have hlength := hperm.length_eq
    simp only [List.length_append, List.length_cons] at hlength
    have hle : a.rank ≤ b.rank :=
      (List.pairwise_cons.mp (List.pairwise_append.mp hascending).2.1).1 b List.mem_cons_self
    refine ⟨_, hmedian, fun hodd => by omega, fun _ =>
      ⟨front, a, b, back, hascending, hperm, hfront, rfl, hle, ?_⟩⟩
    exact (encloses_pair hascending (by omega) (by omega)).of_perm hperm
  · obtain ⟨m, hm, hmedian, hencloses⟩ := medianOf_of_odd hodd
    exact ⟨_, hmedian, fun _ => ⟨m, hm, rfl, hencloses⟩, fun heven => by omega⟩

theorem medianOf_eq_of_ofValues {s : LatencyStats} (h : ofValues values = some s) :
    medianOf values = some s.median := by
  obtain ⟨median, hmedian, hs⟩ := Option.bind_eq_some_iff.mp h
  cases hs
  exact hmedian

theorem medianOf_of_perm (h : others.Perm values) : medianOf others = medianOf values := by
  simp only [medianOf, sorted_of_perm h]

/-- A column with values in it has a median, the same in whatever order the values come. -/
theorem median_of_column (h : values ≠ []) :
    ∃ median, IsMedian values median ∧ ∀ others, others.Perm values →
      sorted others = sorted values ∧
        ∃ s, ofValues others = some s ∧ s.median = median ∧ s.count = values.length := by
  obtain ⟨median, hmedian, hmiddle⟩ := exists_isMedian h
  refine ⟨median, hmiddle, fun others hperm => ⟨sorted_of_perm hperm, ?_⟩⟩
  rw [ofValues, medianOf_of_perm hperm, hmedian]
  exact ⟨_, rfl, rfl, hperm.length_eq⟩

def fourValues : List Binary64 :=
  [⟨0x4010000000000000⟩, ⟨0x3FF0000000000000⟩, ⟨0x4008000000000000⟩, ⟨0x4000000000000000⟩]

def signedValues : List Binary64 :=
  [.notANumber, .zero, .neg .zero, .infinity, .neg .notANumber]

theorem sorted_fourValues : sorted fourValues =
    [⟨0x3FF0000000000000⟩, ⟨0x4000000000000000⟩, ⟨0x4008000000000000⟩, ⟨0x4010000000000000⟩] :=
  (ascending_sorted _).eq_of_perm (by decide) ((sorted_perm _).trans (by decide))

theorem sorted_signedValues : sorted signedValues =
    [.neg .notANumber, .neg .zero, .zero, .infinity, .notANumber] :=
  (ascending_sorted _).eq_of_perm (by decide) ((sorted_perm _).trans (by decide))

theorem medianOf_fourValues : medianOf fourValues = some 2.5 := by
  simp only [medianOf, sorted_fourValues]
  decide +kernel

theorem medianOf_signedValues : medianOf signedValues = some 0.0 := by
  simp only [medianOf, sorted_signedValues]
  decide +kernel

theorem median_of_column_fourValues :
    fourValues ≠ [] ∧ IsMedian fourValues 2.5 ∧ fourValues.reverse.Perm fourValues ∧
      (∃ s, ofValues fourValues.reverse = some s ∧ s.median = 2.5 ∧ s.count = 4) ∧
      signedValues ≠ [] ∧ IsMedian signedValues 0.0 := by
  have hfour : fourValues ≠ [] := by decide
  have hsigned : signedValues ≠ [] := by decide
  have hperm : fourValues.reverse.Perm fourValues := List.reverse_perm _
  obtain ⟨median, hmedian, hothers⟩ := median_of_column hfour
  obtain ⟨-, s, hs, rfl, hcount⟩ := hothers _ hperm
  obtain ⟨median', hmedian', hothers'⟩ := median_of_column hsigned
  obtain ⟨-, s', hs', rfl, -⟩ := hothers' _ (List.Perm.refl _)
  have heq : s.median = 2.5 := Option.some.inj
    ((medianOf_eq_of_ofValues hs).symm.trans ((medianOf_of_perm hperm).trans medianOf_fourValues))
  have heq' : s'.median = 0.0 := Option.some.inj
    ((medianOf_eq_of_ofValues hs').symm.trans medianOf_signedValues)
  exact ⟨hfour, heq ▸ hmedian, hperm, ⟨s, hs, heq, hcount⟩, hsigned, heq' ▸ hmedian'⟩

end LatencyStats
end MappingSweep
