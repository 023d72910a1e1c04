import Mathlib.Algebra.Order.Group.Nat
import Mathlib.Data.List.Induction
import MappingSweep.Figure.Bars
import MappingSweep.Proofs.Number.Numeral
import MappingSweep.Proofs.Number.Order
import MappingSweep.Proofs.Traversal

/-!
# Bars of latencies

The width of the bars comes from the greatest value, and the bar of a value from its whole part.
Since no whole part is beyond that of the greatest value, each value finds its bar, and no number on
the way is too great for a word.  There are at most forty bars, each counts the values between its
label and the next one, and the last bar counts the greatest value.
-/

namespace MappingSweep
namespace Bars

open Number (Binary64 decimal wordBound)
open Number.Binary64 (toNat_toWord wholePart_maxNumber)

variable {top : Nat} {w : UInt64} {v : Binary64} {values : List Binary64}

/-- The greatest whole part of the values, and zero if there are none. -/
def greatest (values : List Binary64) : Nat :=
  ((values.map Binary64.wholePart).max?).getD 0

theorem wholePart_zero : Binary64.zero.wholePart = 0 := by
  rw [← toNat_toWord]
  decide +kernel

theorem wholePart_maxNumber_zero (v : Binary64) : (v.maxNumber .zero).wholePart = v.wholePart := by
  rw [wholePart_maxNumber, wholePart_zero]
  exact Nat.max_zero _

theorem wholePart_foldl_maxNumber (first : Binary64) (values : List Binary64) :
    (values.foldl Binary64.maxNumber first).wholePart =
      (values.map Binary64.wholePart).foldl max first.wholePart := by
  rw [List.foldl_map]
  exact (List.foldl_hom Binary64.wholePart fun x y => (wholePart_maxNumber x y).symm).symm

theorem foldl_max_zero (ns : List Nat) : ns.foldl max 0 = ns.max?.getD 0 := by
  cases ns with
  | nil => rfl
  | cons n ns =>
    rw [List.max?_cons', Option.getD_some, List.foldl_cons]
    exact congrArg (fun first => ns.foldl max first) (Nat.zero_max n)

/-- The whole part of the greatest value is the greatest whole part. -/
theorem toNat_peak (values : List Binary64) : (peak values).toWord.toNat = greatest values := by
  rw [toNat_toWord, peak, wholePart_maxNumber_zero, wholePart_foldl_maxNumber, wholePart_zero,
    foldl_max_zero, greatest]

theorem wholePart_le_greatest (h : v ∈ values) : v.wholePart ≤ greatest values :=
  List.le_max?_getD_of_mem (List.mem_map_of_mem h)

theorem exists_wholePart_eq_greatest (h : values ≠ []) :
    ∃ v ∈ values, v.wholePart = greatest values := by
  obtain ⟨n, hn⟩ : ∃ n, (values.map Binary64.wholePart).max? = some n :=
    Option.isSome_iff_exists.mp (by simp [List.isSome_max?_iff, h])
  obtain ⟨v, hv, hvn⟩ := List.mem_map.mp (List.max?_mem hn)
  exact ⟨v, hv, by rw [greatest, hn, Option.getD_some, hvn]⟩

theorem greatest_lt (values : List Binary64) : greatest values < wordBound := by
  rw [← toNat_peak]
  exact (peak values).toWord.toNat_lt

/-- The width of the bars if this is the greatest value. -/
def spacing (top : Nat) : Nat :=
  if top < 20 then 1 else top / 20

theorem spacing_pos (top : Nat) : 0 < spacing top := by
  unfold spacing
  split <;> omega

theorem div_spacing_lt (top : Nat) : top / spacing top < 40 := by
  rw [Nat.div_lt_iff_lt_mul (spacing_pos top), spacing]
  split <;> omega

theorem width?_eq_some (top : UInt64) : ∃ w, width? top = some w ∧ w.toNat = spacing top.toNat := by
  unfold width? spacing fineRange
  by_cases h : top < 20
  · have hnat : top.toNat < 20 := UInt64.lt_iff_toNat_lt.mp h
    exact ⟨1, if_pos h, (if_pos hnat).symm⟩
  · have hnat : ¬ top.toNat < 20 := fun hlt => h (UInt64.lt_iff_toNat_lt.mpr hlt)
    rw [if_neg h, if_neg hnat]
    exact Number.Word.div?_eq_some (by decide)

/-- How many of the values belong to each bar. -/
def tally (size width : Nat) (values : List Binary64) : List Nat :=
  (List.range size).map fun i => values.countP fun v => v.wholePart / width = i

theorem length_tally (size width : Nat) (values : List Binary64) :
    (tally size width values).length = size := by
  rw [tally, List.length_map, List.length_range]

theorem getElem?_tally (size width : Nat) (values : List Binary64) (i : Nat) :
    (tally size width values)[i]? =
      if i < size then some (values.countP fun v => v.wholePart / width = i) else none := by
  rw [tally, List.getElem?_map]
  split
  · rename_i h
    rw [List.getElem?_range h, Option.map_some]
  · rename_i h
    rw [List.getElem?_eq_none (by rw [List.length_range]; omega), Option.map_none]

theorem tally_nil (size width : Nat) : tally size width [] = List.replicate size 0 := by
  simp only [tally, List.countP_nil, List.map_const', List.length_range]

theorem tally_concat (size width : Nat) (values : List Binary64) (v : Binary64) :
    tally size width (values ++ [v]) =
      (tally size width values).modify (v.wholePart / width) (· + 1) := by
  refine List.ext_getElem? fun i => ?_
  rw [List.getElem?_modify, getElem?_tally, getElem?_tally]
  split
  · rw [List.countP_append, List.countP_singleton]
    by_cases hi : v.wholePart / width = i <;> simp [hi]
  · rfl

theorem sum_modify_succ {counts : List Nat} {i : Nat} (h : i < counts.length) :
    (counts.modify i (· + 1)).sum = counts.sum + 1 := by
  induction counts generalizing i with
  | nil => cases h
  | cons n counts ih =>
    cases i with
    | zero =>
      rw [List.modify_zero_cons, List.sum_cons, List.sum_cons]
      omega
    | succ i =>
      rw [List.modify_succ_cons, List.sum_cons, List.sum_cons, ih (Nat.lt_of_succ_lt_succ h)]
      omega

/-- Where every value has its bar, the bars count all values. -/
theorem sum_tally {size width : Nat} (h : ∀ v ∈ values, v.wholePart / width < size) :
    (tally size width values).sum = values.length := by
  induction values using List.reverseRecOn with
  | nil => rw [tally_nil, List.sum_replicate_nat, Nat.mul_zero, List.length_nil]
  | append_singleton values v ih =>
    have hv : v.wholePart / width < (tally size width values).length := by
      rw [length_tally]
      exact h v (List.mem_append_right _ List.mem_cons_self)
    rw [tally_concat, sum_modify_succ hv, ih fun v hv => h v (List.mem_append_left _ hv),
      List.length_append, List.length_singleton]

theorem place?_eq_some (hw : 0 < w.toNat) (v : Binary64) :
    ∃ i, place? w v = some i ∧ i.toNat = v.wholePart / w.toNat := by
  rw [← wholePart_maxNumber_zero, ← toNat_toWord]
  exact Number.Word.div?_eq_some hw

/-- Counting one more value. -/
theorem countIn?_tally {size : Nat} (hw : 0 < w.toNat) (h : v.wholePart / w.toNat < size)
    (values : List Binary64) : countIn? w (tally size w.toNat values) v =
      some (tally size w.toNat (values ++ [v])) := by
  obtain ⟨i, hplace, hi⟩ := place?_eq_some hw v
  rw [countIn?, hplace, Option.bind_eq_bind, Option.bind_some, countAt?, hi, length_tally,
    if_pos h, tally_concat]

/-- Counting more values, each of which has its bar. -/
theorem foldlM_countIn? {size : Nat} (hw : 0 < w.toNat) {more : List Binary64}
    (h : ∀ v ∈ more, v.wholePart / w.toNat < size) (values : List Binary64) :
    more.foldlM (countIn? w) (tally size w.toNat values) =
      some (tally size w.toNat (values ++ more)) := by
  induction more generalizing values with
  | nil => rw [List.foldlM_nil, List.append_nil]; rfl
  | cons v more ih =>
    rw [List.foldlM_cons, countIn?_tally hw (h v List.mem_cons_self), Option.bind_eq_bind,
      Option.bind_some, ih fun v hv => h v (List.mem_cons_of_mem _ hv), List.append_assoc,
      List.singleton_append]

theorem bar?_eq_some {i : Nat} (h : i * w.toNat < wordBound) (hi : i < wordBound) (count : Nat) :
    bar? w i count = some ⟨decimal (i * w.toNat), count⟩ := by
  have hword : (UInt64.ofNat i).toNat = i := UInt64.toNat_ofNat_of_lt' hi
  obtain ⟨start, hstart, hnat⟩ := Number.Word.mul?_eq_some (a := UInt64.ofNat i) (b := w)
    (by rwa [hword])
  rw [bar?, hstart, Option.bind_eq_bind, Option.bind_some, wordLabel, hnat, hword]

/-! ## The bars -/

/-- The bars with these counts. -/
def spread (width : Nat) (counts : List Nat) : List Bar :=
  counts.zipIdx.map fun c => ⟨decimal (c.2 * width), c.1⟩

theorem getElem?_spread (width : Nat) (counts : List Nat) (i : Nat) :
    (spread width counts)[i]? = counts[i]?.map fun n => ⟨decimal (i * width), n⟩ := by
  rw [spread, List.getElem?_map, List.getElem?_zipIdx, Nat.zero_add, Option.map_map]
  rfl

theorem length_spread (width : Nat) (counts : List Nat) :
    (spread width counts).length = counts.length := by
  rw [spread, List.length_map, List.length_zipIdx]

theorem map_count_spread (width : Nat) (counts : List Nat) :
    (spread width counts).map Bar.count = counts := by
  rw [spread, List.map_map]
  exact List.zipIdx_map_fst 0 counts

theorem mapM_bar? {counts : List Nat} (hw : 0 < w.toNat)
    (h : ∀ i < counts.length, i * w.toNat < wordBound) :
    counts.zipIdx.mapM (fun c => bar? w c.2 c.1) = some (spread w.toNat counts) := by
  refine mapM_eq_some_map fun c hc => ?_
  have hstart := h c.2 (by simpa using List.snd_lt_add_of_mem_zipIdx hc)
  exact bar?_eq_some hstart (Nat.lt_of_le_of_lt (Nat.le_mul_of_pos_right _ hw) hstart) c.1

/-- How many bars there are, and how wide they are. -/
def barWidth (values : List Binary64) : Nat :=
  spacing (greatest values)

def barCount (values : List Binary64) : Nat :=
  greatest values / barWidth values + 1

def histogram (values : List Binary64) : List Bar :=
  spread (barWidth values) (tally (barCount values) (barWidth values) values)

theorem place_lt_barCount (h : v ∈ values) : v.wholePart / barWidth values < barCount values :=
  Nat.lt_succ_of_le (Nat.div_le_div_right (wholePart_le_greatest h))

theorem start_lt_wordBound {i : Nat} (h : i < barCount values) :
    i * barWidth values < wordBound :=
  calc i * barWidth values ≤ greatest values / barWidth values * barWidth values :=
        Nat.mul_le_mul_right _ (Nat.le_of_lt_succ h)
    _ ≤ greatest values := Nat.div_mul_le_self _ _
    _ < wordBound := greatest_lt values

/-- No number leaves the words or the bars, whatever the values are. -/
theorem latencies?_eq_some (values : List Binary64) :
    latencies? values = some (histogram values) := by
  obtain ⟨w, hwidth, hw⟩ := width?_eq_some (peak values).toWord
  rw [toNat_peak, ← barWidth] at hw
  have hpos : 0 < w.toNat := hw ▸ spacing_pos (greatest values)
  obtain ⟨last, hlast, hlastNat⟩ := Number.Word.div?_eq_some (a := (peak values).toWord) hpos
  rw [toNat_peak, hw] at hlastNat
  -- the number of bars is a word since it is at most forty
  have hsmall : last.toNat + (1 : UInt64).toNat < wordBound :=
    calc last.toNat + 1 ≤ 40 := hlastNat ▸ div_spacing_lt (greatest values)
      _ < wordBound := by decide
  obtain ⟨size, hsize, hsizeNat⟩ := Number.Word.add?_eq_some hsmall
  have hcount : size.toNat = barCount values := by
    rw [hsizeNat, hlastNat]
    rfl
  have hplaces : ∀ v ∈ values, v.wholePart / w.toNat < size.toNat := fun v hv => by
    rw [hw, hcount]
    exact place_lt_barCount hv
  have hcounts := foldlM_countIn? hpos hplaces []
  rw [tally_nil, List.nil_append, hw, hcount] at hcounts
  -- the labels are words since none is beyond the greatest value
  have hstarts : ∀ i < (tally (barCount values) (barWidth values) values).length,
      i * w.toNat < wordBound := fun i hi => by
    rw [length_tally] at hi
    rw [hw]
    exact start_lt_wordBound hi
  have hbars := mapM_bar? hpos hstarts
  rw [hw] at hbars
  simp only [latencies?, hwidth, hlast, hsize, hcount, hcounts, hbars, Option.bind_eq_bind,
    Option.bind_some, histogram]

theorem div_eq_iff_between {n width i : Nat} (h : 0 < width) :
    n / width = i ↔ i * width ≤ n ∧ n < (i + 1) * width := by
  rw [← Nat.le_div_iff_mul_le h, ← Nat.div_lt_iff_lt_mul h]
  omega

theorem length_histogram (values : List Binary64) :
    (histogram values).length = barCount values := by
  rw [histogram, length_spread, length_tally]

theorem getElem?_histogram (values : List Binary64) (i : Nat) : (histogram values)[i]? =
    if i < barCount values then
      some ⟨decimal (i * barWidth values), values.countP fun v => v.wholePart / barWidth values = i⟩
    else none := by
  rw [histogram, getElem?_spread, getElem?_tally]
  split <;> rfl

theorem bar_of_histogram {i : Nat} {b : Bar} (h : (histogram values)[i]? = some b) :
    b.label = decimal (i * barWidth values) ∧ b.count = values.countP fun v =>
      i * barWidth values ≤ v.wholePart ∧ v.wholePart < (i + 1) * barWidth values := by
  rw [getElem?_histogram] at h
  split at h
  · cases h
    refine ⟨rfl, List.countP_congr fun v _ => ?_⟩
    rw [decide_eq_true_iff, decide_eq_true_iff]
    exact div_eq_iff_between (spacing_pos (greatest values))
  · cases h

theorem sum_counts_histogram (values : List Binary64) :
    ((histogram values).map Bar.count).sum = values.length := by
  rw [histogram, map_count_spread, sum_tally fun v hv => place_lt_barCount hv]

/-- The last bar is the one of the greatest value. -/
theorem exists_last_bar (h : values ≠ []) :
    ∃ b, (histogram values).getLast? = some b ∧ 0 < b.count := by
  have hlast : greatest values / barWidth values < barCount values := Nat.lt_succ_self _
  obtain ⟨v, hv, hgreatest⟩ := exists_wholePart_eq_greatest h
  rw [List.getLast?_eq_getElem?, length_histogram, getElem?_histogram, barCount,
    Nat.add_sub_cancel, ← barCount, if_pos hlast]
  refine ⟨_, rfl, List.countP_pos_iff.mpr ⟨v, hv, ?_⟩⟩
  rw [hgreatest, decide_eq_true_iff]

/-- No number on the way to the bars leaves the words, none is divided by zero and every value has a
bar.  There are at most forty bars, each counts the values from its label up to the next one, every
value is counted once, and the last bar is the one of the greatest value. -/
theorem bars_of_latencies (values : List Binary64) :
    let top := greatest values
    let width := if top < 20 then 1 else top / 20
    ∃ bars, latencies? values = some bars ∧ ofLatencies values = bars ∧
      bars.length = top / width + 1 ∧ bars.length ≤ 40 ∧
      (∀ i b, bars[i]? = some b → b.label = decimal (i * width) ∧
        b.count = values.countP fun v =>
          i * width ≤ v.wholePart ∧ v.wholePart < (i + 1) * width) ∧
      (bars.map Bar.count).sum = values.length ∧
      (values ≠ [] → ∃ b, bars.getLast? = some b ∧ 0 < b.count) := by
  have hsome := latencies?_eq_some values
  exact ⟨histogram values, hsome, by rw [ofLatencies, hsome, Option.getD_some],
    length_histogram values, (length_histogram values).trans_le (div_spacing_lt _),
    fun i b => bar_of_histogram, sum_counts_histogram values, exists_last_bar⟩

/-- A NaN, a negative value, and values with a fraction. -/
def oddValues : List Binary64 :=
  [.notANumber, ⟨0xC014000000000000⟩, ⟨0x3FE0000000000000⟩, ⟨0x3FF0000000000000⟩,
    ⟨0x4006000000000000⟩]

theorem bars_of_latencies_oddValues :
    ofLatencies oddValues = [⟨"0", 3⟩, ⟨"1", 1⟩, ⟨"2", 1⟩] ∧ oddValues ≠ [] ∧
      (∃ b, (ofLatencies oddValues).getLast? = some b ∧ 0 < b.count) ∧
      greatest [.infinity] = 2 ^ 64 - 1 ∧ (ofLatencies [.infinity]).length = 21 := by
  obtain ⟨_, -, hodd, -, -, -, -, hlast⟩ := bars_of_latencies oddValues
  obtain ⟨_, -, hinfinite, hlength, -⟩ := bars_of_latencies [.infinity]
  have hne : oddValues ≠ [] := by decide
  have htop : greatest [.infinity] = 2 ^ 64 - 1 := by decide +kernel
  refine ⟨by decide +kernel, hne, hodd ▸ hlast hne, htop, ?_⟩
  rw [hinfinite, hlength, htop]
  decide

end Bars
end MappingSweep
