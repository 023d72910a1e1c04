import Mathlib.Data.List.Nodup
import MappingSweep.Plan

/-!
# Runnable plans

A plan is valid exactly if it is runnable.  A plan that is not has a flaw, which is the first of
several conditions that does not hold; of names that come again it is the first one that does.
-/

namespace MappingSweep

/-- The name equals one before it, and no name before it does. -/
def FirstRepeat (names : List String) (name : String) : Prop :=
  ∃ before after, names = before ++ name :: after ∧ before.Nodup ∧ name ∈ before

variable {seen names : List String} {name : String}

theorem firstRepeat?_eq_none_iff :
    firstRepeat? seen names = none ↔ names.Nodup ∧ ∀ name ∈ names, name ∉ seen := by
  induction names generalizing seen with
  | nil => simp [firstRepeat?]
  | cons first names ih =>
    unfold firstRepeat?
    split
    · rename_i hseen
      simp [hseen]
    · rename_i hnew
      rw [ih, List.nodup_cons, List.forall_mem_cons]
      grind

theorem firstRepeat?_eq_some_iff : firstRepeat? seen names = some name ↔
    ∃ before after, names = before ++ name :: after ∧
      (before.Nodup ∧ ∀ n ∈ before, n ∉ seen) ∧ (name ∈ seen ∨ name ∈ before) := by
  induction names generalizing seen with
  | nil => simp [firstRepeat?]
  | cons first names ih =>
    unfold firstRepeat?
    split
    · rename_i hseen
      rw [Option.some_inj]
      constructor
      · rintro rfl
        exact ⟨[], names, rfl, by simp, .inl hseen⟩
      · rintro ⟨before, after, heq, ⟨-, hbefore⟩, -⟩
        cases before with
        | nil => exact (List.cons.inj heq).1
        | cons n before =>
          obtain ⟨rfl, -⟩ := List.cons.inj heq
          exact absurd hseen (hbefore _ List.mem_cons_self)
    · rename_i hnew
      rw [ih]
      constructor
      · rintro ⟨before, after, rfl, ⟨hnodup, hbefore⟩, hname⟩
        refine ⟨first :: before, after, rfl, ?_, ?_⟩ <;> grind
      · rintro ⟨before, after, heq, ⟨hnodup, hbefore⟩, hname⟩
        cases before with
        | nil =>
          obtain ⟨rfl, -⟩ := List.cons.inj heq
          grind
        | cons n before =>
          obtain ⟨rfl, rfl⟩ := List.cons.inj heq
          refine ⟨before, after, rfl, ?_, ?_⟩ <;> grind

theorem nodup_or_exists_firstRepeat (names : List String) :
    names.Nodup ∨ ∃ name, FirstRepeat names name := by
  cases h : firstRepeat? [] names with
  | none => exact .inl (firstRepeat?_eq_none_iff.mp h).1
  | some name =>
    obtain ⟨before, after, heq, ⟨hnodup, -⟩, hname⟩ := firstRepeat?_eq_some_iff.mp h
    exact .inr ⟨name, before, after, heq, hnodup, hname.resolve_left List.not_mem_nil⟩

theorem FirstRepeat.firstRepeat?_eq (h : FirstRepeat names name) :
    firstRepeat? [] names = some name := by
  obtain ⟨before, after, heq, hnodup, hname⟩ := h
  exact firstRepeat?_eq_some_iff.mpr
    ⟨before, after, heq, ⟨hnodup, fun _ _ => List.not_mem_nil⟩, .inr hname⟩

theorem firstRepeat?_of_nodup (h : names.Nodup) : firstRepeat? [] names = none :=
  firstRepeat?_eq_none_iff.mpr ⟨h, fun _ _ => List.not_mem_nil⟩

namespace Plan

variable {p : Plan} {f : SettingsFault}

def mappingNames (p : Plan) : List String :=
  p.mappings.map (·.name)

def patternNames (p : Plan) : List String :=
  p.patterns.map (·.name)

/-- There is something to run, somebody to run it, and no name comes again. -/
structure Runnable (p : Plan) : Prop where
  mappings : p.mappings ≠ []
  patterns : p.patterns ≠ []
  workers : p.maxWorkers ≠ 0
  mappings_nodup : p.mappingNames.Nodup
  patterns_nodup : p.patternNames.Nodup

/-- The first of the conditions that does not hold, in the order of the cases. -/
inductive Flaw (p : Plan) : SettingsFault → Prop where
  | noMappings (hmappings : p.mappings = []) : Flaw p .noMappings
  | noTraces (hmappings : p.mappings ≠ []) (hpatterns : p.patterns = []) : Flaw p .noTraces
  | noWorkers (hmappings : p.mappings ≠ []) (hpatterns : p.patterns ≠ [])
      (hworkers : p.maxWorkers = 0) : Flaw p .noWorkers
  | repeatedMapping (again : String) (hmappings : p.mappings ≠ []) (hpatterns : p.patterns ≠ [])
      (hworkers : p.maxWorkers ≠ 0) (hrepeat : FirstRepeat p.mappingNames again) :
      Flaw p (.repeatedMapping again)
  | repeatedTrace (again : String) (hmappings : p.mappings ≠ []) (hpatterns : p.patterns ≠ [])
      (hworkers : p.maxWorkers ≠ 0) (hnames : p.mappingNames.Nodup)
      (hrepeat : FirstRepeat p.patternNames again) : Flaw p (.repeatedTrace again)

theorem runnable_or_exists_flaw (p : Plan) : p.Runnable ∨ ∃ f, p.Flaw f := by
  by_cases hmappings : p.mappings = []
  · exact .inr ⟨_, .noMappings hmappings⟩
  by_cases hpatterns : p.patterns = []
  · exact .inr ⟨_, .noTraces hmappings hpatterns⟩
  by_cases hworkers : p.maxWorkers = 0
  · exact .inr ⟨_, .noWorkers hmappings hpatterns hworkers⟩
  rcases nodup_or_exists_firstRepeat p.mappingNames with hnames | ⟨name, hrepeat⟩
  · rcases nodup_or_exists_firstRepeat p.patternNames with hnames' | ⟨name, hrepeat⟩
    · exact .inl ⟨hmappings, hpatterns, hworkers, hnames, hnames'⟩
    · exact .inr ⟨_, .repeatedTrace name hmappings hpatterns hworkers hnames hrepeat⟩
  · exact .inr ⟨_, .repeatedMapping name hmappings hpatterns hworkers hrepeat⟩

theorem Runnable.validate_eq (h : p.Runnable) : p.validate = .ok () := by
  have hmappings := firstRepeat?_of_nodup h.mappings_nodup
  have hpatterns := firstRepeat?_of_nodup h.patterns_nodup
  simp only [mappingNames, patternNames] at hmappings hpatterns
  simp [validate, fault?, h.mappings, h.patterns, h.workers, hmappings, hpatterns]

theorem Flaw.validate_eq (h : p.Flaw f) : p.validate = .error f := by
  cases h with
  | noMappings hmappings => simp [validate, fault?, hmappings]
  | noTraces hmappings hpatterns => simp [validate, fault?, hmappings, hpatterns]
  | noWorkers hmappings hpatterns hworkers =>
    simp [validate, fault?, hmappings, hpatterns, hworkers]
  | repeatedMapping name hmappings hpatterns hworkers hrepeat =>
    have hname := hrepeat.firstRepeat?_eq
    simp only [mappingNames] at hname
    simp [validate, fault?, hmappings, hpatterns, hworkers, hname]
  | repeatedTrace name hmappings hpatterns hworkers hnames hrepeat =>
    have hnone := firstRepeat?_of_nodup hnames
    have hname := hrepeat.firstRepeat?_eq
    simp only [mappingNames, patternNames] at hnone hname
    simp [validate, fault?, hmappings, hpatterns, hworkers, hnone, hname]

theorem validate_eq_ok_iff : p.validate = .ok () ↔ p.Runnable := by
  refine ⟨fun h => (runnable_or_exists_flaw p).resolve_right ?_, Runnable.validate_eq⟩
  rintro ⟨f, hf⟩
  cases h.symm.trans hf.validate_eq

theorem validate_eq_error_iff : p.validate = .error f ↔ p.Flaw f := by
  refine ⟨fun h => ?_, Flaw.validate_eq⟩
  rcases runnable_or_exists_flaw p with hrunnable | ⟨f', hf'⟩
  · cases h.symm.trans hrunnable.validate_eq
  · cases h.symm.trans hf'.validate_eq
    exact hf'

theorem Runnable.workerCount_le (h : p.Runnable) : 1 ≤ p.workerCount ∧
    p.workerCount ≤ p.maxWorkers.toNat ∧ p.workerCount ≤ p.mappings.length := by
  have hworkers : p.maxWorkers.toNat ≠ 0 := fun hzero => h.workers (UInt64.toNat_inj.mp hzero)
  have hmappings : p.mappings.length ≠ 0 := mt List.length_eq_zero_iff.mp h.mappings
  unfold workerCount
  omega

end Plan
end MappingSweep
