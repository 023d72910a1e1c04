import MappingSweep.Log.Access
import MappingSweep.Proofs.Traversal

/-!
# Statistics of columns

A column has statistics exactly if it has a value.  So those of all columns are found exactly if
none is empty, and nothing else can be wrong.
-/

namespace MappingSweep

namespace LatencyStats

variable {values : List Number.Binary64}

/-- These are the statistics of the values. -/
def FromValues (values : List Number.Binary64) (s : LatencyStats) : Prop :=
  ofValues values = some s

theorem exists_ofValues (h : values ≠ []) : ∃ s, ofValues values = some s := by
  have hlength : (sorted values).length = values.length :=
    (List.mergeSort_perm values _).length_eq
  have hpos : 0 < values.length := List.length_pos_iff.mpr h
  obtain ⟨median, hmedian⟩ : ∃ median, medianOf values = some median := by
    unfold medianOf
    dsimp only
    rw [hlength]
    split
    · rw [List.getElem?_eq_getElem (by omega)]
      exact ⟨_, rfl⟩
    · rw [List.getElem?_eq_getElem (by omega), List.getElem?_eq_getElem (by omega)]
      exact ⟨_, rfl⟩
  rw [ofValues, hmedian]
  exact ⟨_, rfl⟩

theorem exists_fromValues_iff : (∃ s, FromValues values s) ↔ values ≠ [] := by
  constructor
  · rintro ⟨s, hs⟩ rfl
    simp [FromValues, ofValues, medianOf, sorted] at hs
  · exact exists_ofValues

end LatencyStats

namespace AccessLog

open LatencyStats (FromValues exists_fromValues_iff)

variable {columns : Columns}

theorem statsOf_eq_mapM (columns : Columns) :
    statsOf columns = columns.mapM fun c =>
      match LatencyStats.ofValues c.2 with
      | some s => .ok (c.1, s)
      | none => .error .noRows := by
  induction columns with
  | nil => rfl
  | cons c columns ih =>
    obtain ⟨name, values⟩ := c
    rw [statsOf, List.mapM_cons, ← ih]
    cases LatencyStats.ofValues values with
    | none => rfl
    | some s => cases statsOf columns <;> rfl

theorem statsOf_eq_ok_iff {entries : List (String × LatencyStats)} :
    statsOf columns = .ok entries ↔
      List.Forall₂ (fun c e => c.1 = e.1 ∧ FromValues c.2 e.2) columns entries := by
  have hone : ∀ (c : String × List Number.Binary64) (e : String × LatencyStats),
      (match LatencyStats.ofValues c.2 with
        | some s => (.ok (c.1, s) : Except LogFault _)
        | none => .error .noRows) = .ok e ↔ c.1 = e.1 ∧ FromValues c.2 e.2 := by
    intro c e
    rw [FromValues]
    cases LatencyStats.ofValues c.2 <;> simp [Prod.ext_iff]
  rw [statsOf_eq_mapM, mapM_eq_ok_iff]
  simp only [hone]

theorem exists_statsOf_iff :
    (∃ entries, statsOf columns = .ok entries) ↔ ∀ c ∈ columns, c.2 ≠ [] := by
  constructor
  · rintro ⟨entries, h⟩ c hc
    obtain ⟨i, hi, rfl⟩ := List.mem_iff_getElem.mp hc
    have hall := statsOf_eq_ok_iff.mp h
    exact exists_fromValues_iff.mp ⟨_, (hall.get hi (hall.length_eq ▸ hi)).2⟩
  · intro h
    rw [statsOf_eq_mapM]
    refine exists_mapM fun c hc => ?_
    obtain ⟨s, hs⟩ := LatencyStats.exists_ofValues (h c hc)
    exact ⟨(c.1, s), by rw [hs]⟩

theorem stats_eq_ok_iff {text : String} {found : Keyed LatencyStats} :
    stats text = .ok found ↔ ∃ columns entries, AccessLog.columns text = .ok columns ∧
      found = Keyed.ofList entries ∧
      List.Forall₂ (fun c e => c.1 = e.1 ∧ FromValues c.2 e.2) columns entries := by
  simp only [← statsOf_eq_ok_iff]
  unfold stats
  cases AccessLog.columns text with
  | error f => simp [bind, Except.bind]
  | ok columns =>
    cases hentries : statsOf columns with
    | error f => simp [bind, Except.bind, hentries]
    | ok entries => simp [bind, Except.bind, pure, Except.pure, hentries, eq_comm]

end AccessLog
end MappingSweep
