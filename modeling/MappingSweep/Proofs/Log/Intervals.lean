import Mathlib.Algebra.GroupWithZero.Nat
import Mathlib.Data.List.Basic
import MappingSweep.Log.CommandTrace

/-!
# How intervals add up

Events have one interval less than there are events, from each one to the next.  A clock that goes
back gives an interval of zero.  As long as no clock goes back the intervals add up to the time that
has passed, so that the interval between two reads is made up of all intervals between them.
-/

namespace MappingSweep
namespace CommandTrace

variable {a b : UInt64} {clocks : List UInt64} {events before between after : List CommandEvent}
  {e e' : CommandEvent} {i k : Nat} {d : UInt64}

theorem toNat_gap (a b : UInt64) : (gap a b).toNat = b.toNat - a.toNat := by
  unfold gap
  split
  · rename_i hle
    exact UInt64.toNat_sub_of_le b a hle
  · rename_i hgt
    have hlt : b.toNat < a.toNat := UInt64.lt_iff_toNat_lt.mp (UInt64.not_le.mp hgt)
    rw [Nat.sub_eq_zero_of_le (Nat.le_of_lt hlt)]
    rfl

theorem length_gaps (clocks : List UInt64) : (gaps clocks).length = clocks.length - 1 := by
  fun_induction gaps clocks with
  | case1 a b rest ih =>
    rw [List.length_cons, ih]
    rfl
  | case2 clocks hshort =>
    match clocks, hshort with
    | [], _ => rfl
    | [_], _ => rfl
    | a :: b :: rest, hshort => exact absurd rfl (hshort a b rest)

/-- The gaps up to one of the clocks, and those from there on. -/
theorem gaps_append_cons (clocks later : List UInt64) (a : UInt64) :
    gaps (clocks ++ a :: later) = gaps (clocks ++ [a]) ++ gaps (a :: later) := by
  induction clocks with
  | nil => rfl
  | cons c clocks ih =>
    cases clocks with
    | nil => rfl
    | cons c' clocks =>
      simp only [List.cons_append, gaps] at ih ⊢
      rw [ih]

theorem getElem?_gaps (ha : clocks[i]? = some a) (hb : clocks[i + 1]? = some b) :
    (gaps clocks)[i]? = some (gap a b) := by
  induction clocks generalizing i with
  | nil => cases ha
  | cons c clocks ih =>
    cases clocks with
    | nil => cases hb
    | cons c' clocks =>
      cases i with
      | zero =>
        cases ha
        cases hb
        rfl
      | succ i => exact ih ha hb

/-- The sum as a number, which a word might be too short for. -/
def total (intervals : List UInt64) : Nat :=
  (intervals.map UInt64.toNat).sum

theorem total_gaps (h : clocks.Pairwise (· ≤ ·)) (ha : clocks.head? = some a)
    (hb : clocks.getLast? = some b) : a.toNat + total (gaps clocks) = b.toNat := by
  induction clocks generalizing a with
  | nil => cases ha
  | cons c clocks ih =>
    cases ha
    cases clocks with
    | nil =>
      cases hb
      rfl
    | cons c' clocks =>
      obtain ⟨hfirst, hrest⟩ := List.pairwise_cons.mp h
      have hle : c.toNat ≤ c'.toNat := UInt64.le_iff_toNat_le.mp (hfirst c' List.mem_cons_self)
      have htotal : total (gaps (c :: c' :: clocks)) =
          (c'.toNat - c.toNat) + total (gaps (c' :: clocks)) := by
        simp [gaps, total, toNat_gap]
      have hlast := ih hrest rfl (by rwa [List.getLast?_cons_cons] at hb)
      omega

def clocksOf (events : List CommandEvent) : List UInt64 :=
  events.map (·.clock)

/-- The events with the very command of a read, and not with one that only begins like it. -/
def readsOf (events : List CommandEvent) : List CommandEvent :=
  events.filter (·.command == readCommand)

/-- No clock goes back. -/
def Ordered (events : List CommandEvent) : Prop :=
  events.Pairwise fun e e' => e.clock ≤ e'.clock

instance (events : List CommandEvent) : Decidable (Ordered events) :=
  inferInstanceAs (Decidable (events.Pairwise _))

/-- The time from one event to another, which is none if the clock goes back. -/
structure Leads (e e' : CommandEvent) (d : UInt64) : Prop where
  forward : e.clock ≤ e'.clock → e.clock.toNat + d.toNat = e'.clock.toNat
  back : e'.clock ≤ e.clock → d = 0

/-- There is an interval from each event to the next one. -/
structure Stepwise (events : List CommandEvent) (intervals : List UInt64) : Prop where
  length_eq : intervals.length = events.length - 1
  leads : ∀ i e e', events[i]? = some e → events[i + 1]? = some e' →
    ∃ d, intervals[i]? = some d ∧ Leads e e' d

/-- The intervals lead from the first event to the last one. -/
def Spanning (events : List CommandEvent) (intervals : List UInt64) : Prop :=
  ∀ first last, events.head? = some first → events.getLast? = some last →
    first.clock.toNat + total intervals = last.clock.toNat

/-- The read with this number and the one after it divide the events. -/
structure Divides (events : List CommandEvent) (k : Nat) (before : List CommandEvent)
    (e : CommandEvent) (between : List CommandEvent) (e' : CommandEvent)
    (after : List CommandEvent) : Prop where
  events_eq : events = before ++ e :: (between ++ e' :: after)
  number : (readsOf before).length = k
  first : e.command = readCommand
  none_between : ∀ x ∈ between, x.command ≠ readCommand
  second : e'.command = readCommand

theorem leads_gap (e e' : CommandEvent) : Leads e e' (gap e.clock e'.clock) where
  forward hle := by
    rw [toNat_gap, Nat.add_sub_cancel' (UInt64.le_iff_toNat_le.mp hle)]
  back hle := by
    apply UInt64.toNat_inj.mp
    rw [toNat_gap, Nat.sub_eq_zero_of_le (UInt64.le_iff_toNat_le.mp hle)]
    rfl

theorem stepwise_gaps (events : List CommandEvent) :
    Stepwise events (gaps (clocksOf events)) where
  length_eq := by rw [length_gaps, clocksOf, List.length_map]
  leads i e e' he he' := by
    have hclock : (clocksOf events)[i]? = some e.clock := by simp [clocksOf, he]
    have hclock' : (clocksOf events)[i + 1]? = some e'.clock := by simp [clocksOf, he']
    exact ⟨_, getElem?_gaps hclock hclock', leads_gap e e'⟩

theorem Ordered.pairwise (h : Ordered events) : (clocksOf events).Pairwise (· ≤ ·) :=
  List.pairwise_map.mpr h

theorem Ordered.reads (h : Ordered events) : Ordered (readsOf events) :=
  List.Pairwise.filter _ h

theorem Ordered.spanning (h : Ordered events) : Spanning events (gaps (clocksOf events)) := by
  intro first last hfirst hlast
  apply total_gaps h.pairwise
  · rw [clocksOf, List.head?_map, hfirst, Option.map_some]
  · rw [clocksOf, List.getLast?_map, hlast, Option.map_some]

/-! ## Intervals between reads -/

theorem intervals_all (events : List CommandEvent) :
    (intervals events).all = gaps (clocksOf events) :=
  rfl

theorem intervals_reads (events : List CommandEvent) :
    (intervals events).reads = gaps (clocksOf (readsOf events)) :=
  rfl

theorem exists_pair_at {α : Type} {l : List α} {x y : α} (hx : l[k]? = some x)
    (hy : l[k + 1]? = some y) : ∃ front back, l = front ++ x :: y :: back ∧ front.length = k := by
  obtain ⟨hk, rfl⟩ := List.getElem?_eq_some_iff.mp hx
  obtain ⟨hk', rfl⟩ := List.getElem?_eq_some_iff.mp hy
  refine ⟨l.take k, l.drop (k + 2), ?_, List.length_take_of_le (Nat.le_of_lt hk)⟩
  rw [← List.drop_eq_getElem_cons hk', ← List.drop_eq_getElem_cons hk, List.take_append_drop]

theorem exists_divides (he : (readsOf events)[k]? = some e)
    (he' : (readsOf events)[k + 1]? = some e') :
    ∃ before between after, Divides events k before e between e' after := by
  obtain ⟨front, back, hsplit, rfl⟩ := exists_pair_at he he'
  obtain ⟨before, rest, rfl, rfl, hrest⟩ := List.filter_eq_append_iff.mp hsplit
  obtain ⟨skipped, others, rfl, hskipped, hread, hothers⟩ := List.filter_eq_cons_iff.mp hrest
  obtain ⟨between, after, rfl, hbetween, hread', -⟩ := List.filter_eq_cons_iff.mp hothers
  refine ⟨before ++ skipped, between, after, by simp, ?_, by simpa using hread, ?_,
    by simpa using hread'⟩
  · have hnone : readsOf skipped = [] := List.filter_eq_nil_iff.mpr hskipped
    rw [readsOf, List.filter_append]
    change (_ ++ readsOf skipped).length = _
    rw [hnone, List.append_nil]
  · intro x hx
    simpa using hbetween x hx

variable (h : Divides events k before e between e' after)

include h

/-- The intervals from a read to the next one. -/
theorem Divides.all_between :
    ((intervals events).all.drop before.length).take (between.length + 1) =
      gaps (e.clock :: (clocksOf between ++ [e'.clock])) := by
  have hclocks : clocksOf events =
      clocksOf before ++ e.clock :: (clocksOf between ++ e'.clock :: clocksOf after) := by
    simp [clocksOf, h.events_eq]
  have hfront : (gaps (clocksOf before ++ [e.clock])).length = before.length := by
    simp [length_gaps, clocksOf]
  have hmiddle : (gaps (e.clock :: (clocksOf between ++ [e'.clock]))).length =
      between.length + 1 := by
    simp [length_gaps, clocksOf]
  rw [intervals_all, hclocks, gaps_append_cons, List.drop_left' hfront, ← List.cons_append,
    gaps_append_cons, List.cons_append, List.take_left' hmiddle]

theorem Divides.total_between (hordered : Ordered events) :
    e.clock.toNat + total (((intervals events).all.drop before.length).take (between.length + 1)) =
      e'.clock.toNat := by
  have hpairwise : (e.clock :: (clocksOf between ++ [e'.clock])).Pairwise (· ≤ ·) := by
    refine hordered.pairwise.sublist ?_
    simp [clocksOf, h.events_eq]
  rw [h.all_between]
  refine total_gaps hpairwise rfl ?_
  rw [← List.cons_append, List.getLast?_concat]

omit h

/-- Whatever the events are, there is an interval from each of them to the next one, and from each
read to the next read.  If no clock goes back, then the intervals of both kinds lead from the first
of their events to the last, and the intervals between two reads add up to the one from the first of
these reads to the second. -/
theorem intervals_add_up (events : List CommandEvent) :
    Stepwise events (intervals events).all ∧
      Stepwise (readsOf events) (intervals events).reads ∧
      (Ordered events →
        Spanning events (intervals events).all ∧
        Spanning (readsOf events) (intervals events).reads ∧
        ∀ k d, (intervals events).reads[k]? = some d → ∃ before e between e' after,
          Divides events k before e between e' after ∧
            total (((intervals events).all.drop before.length).take (between.length + 1)) =
              d.toNat) := by
  have hreads := stepwise_gaps (readsOf events)
  refine ⟨stepwise_gaps events, hreads, fun hordered =>
    ⟨hordered.spanning, hordered.reads.spanning, fun k d hd => ?_⟩⟩
  have hk : k + 1 < (readsOf events).length := by
    have hlt := (List.getElem?_eq_some_iff.mp hd).1
    rw [intervals_reads, hreads.length_eq] at hlt
    omega
  have he := List.getElem?_eq_getElem (Nat.lt_of_succ_lt hk)
  have he' := List.getElem?_eq_getElem hk
  obtain ⟨before, between, after, hdivides⟩ := exists_divides he he'
  refine ⟨before, _, between, _, after, hdivides, ?_⟩
  obtain ⟨d', hd', hleads⟩ := hreads.leads k _ _ he he'
  obtain rfl : d' = d := Option.some.inj (hd'.symm.trans hd)
  have hsum := hdivides.total_between hordered
  have hforward := hleads.forward (UInt64.le_iff_toNat_le.mpr (by omega))
  omega

/-- One command between the reads has a longer name, and one comes at the same time as a read. -/
def mixedEvents : List CommandEvent :=
  [⟨10, "ACT"⟩, ⟨14, "RD"⟩, ⟨14, "RDA"⟩, ⟨30, "PRE"⟩, ⟨45, "RD"⟩, ⟨47, "RD"⟩]

def turningEvents : List CommandEvent :=
  [⟨5, "RD"⟩, ⟨3, "ACT"⟩, ⟨9, "RD"⟩, ⟨8, "RD"⟩]

theorem intervals_add_up_mixedEvents :
    Ordered mixedEvents ∧ intervals mixedEvents = ⟨[4, 0, 16, 15, 2], [31, 2]⟩ ∧
      (∃ before e between e' after, Divides mixedEvents 0 before e between e' after ∧
        total ((([4, 0, 16, 15, 2] : List UInt64).drop before.length).take (between.length + 1)) =
          31) ∧
      (14 + total [31, 2] = 47) ∧
      ¬ Ordered turningEvents ∧ Stepwise turningEvents [0, 6, 0] ∧
      Stepwise (readsOf turningEvents) [4, 0] := by
  have hordered : Ordered mixedEvents := by decide
  obtain ⟨-, -, hsums⟩ := intervals_add_up mixedEvents
  obtain ⟨-, hreads, hbetween⟩ := hsums hordered
  obtain ⟨hsteps, hreadSteps, -⟩ := intervals_add_up turningEvents
  exact ⟨hordered, by decide, hbetween 0 31 rfl, hreads ⟨14, "RD"⟩ ⟨47, "RD"⟩ rfl rfl, by decide,
    hsteps, hreadSteps⟩

end CommandTrace
end MappingSweep
