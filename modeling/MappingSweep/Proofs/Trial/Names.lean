import MappingSweep.Proofs.FileSystem.Path
import MappingSweep.Proofs.Plan
import MappingSweep.Trial.Basic

/-!
# Names and directories of trials

The name of a trial says which mapping and which pattern it runs, since neither holds a slash.  A
valid plan has no two trials of one name, and the directories of two of its trials are apart.
-/

namespace MappingSweep

namespace Plan

variable {plan : Plan}

theorem nodup_names (h : plan.validate = .ok ()) :
    (plan.mappings.map (·.name)).Nodup ∧ (plan.patterns.map (·.name)).Nodup :=
  have hrunnable := validate_eq_ok_iff.mp h
  ⟨hrunnable.mappings_nodup, hrunnable.patterns_nodup⟩

/-- A name stands in one place of the list only. -/
theorem index_eq_of_name (h : plan.validate = .ok ()) {i j : Nat} {m n : Mapping}
    (hm : plan.mappings[i]? = some m) (hn : plan.mappings[j]? = some n) (hname : m.name = n.name) :
    i = j := by
  have hlt : i < (plan.mappings.map (·.name)).length := by
    rw [List.length_map]
    exact (List.getElem?_eq_some_iff.mp hm).1
  apply (List.getElem?_inj hlt (nodup_names h).1).mp
  rw [List.getElem?_map, List.getElem?_map, hm, hn, Option.map_some, Option.map_some, hname]

end Plan

namespace Trial

theorem splitOn_name (t : Trial) :
    Text.splitOn '/' t.name.toList = [t.mapping.name.toList, t.pattern.name.toList] := by
  have hslash : "/".toList = ['/'] := rfl
  rw [name, String.toList_append, String.toList_append, hslash, List.append_assoc,
    List.singleton_append, Text.splitOn_append_sep,
    Text.splitOn_of_not_mem t.mapping.isName.2.2.2, Text.splitOn_of_not_mem t.pattern.isName.2.2.2]
  rfl

theorem name_inj {t u : Trial} :
    t.name = u.name ↔ t.mapping.name = u.mapping.name ∧ t.pattern.name = u.pattern.name := by
  constructor
  · intro h
    have hsplit := congrArg (Text.splitOn '/' ·.toList) h
    simp only [splitOn_name] at hsplit
    obtain ⟨hmapping, hrest⟩ := List.cons.inj hsplit
    exact ⟨String.toList_inj.mp hmapping, String.toList_inj.mp (List.cons.inj hrest).1⟩
  · rintro ⟨hmapping, hpattern⟩
    rw [name, name, hmapping, hpattern]

/-- No trial is named like a mapping. -/
theorem name_ne_mapping (t : Trial) (m : Mapping) : t.name ≠ m.name := by
  intro h
  apply m.isName.2.2.2
  rw [← h, name, String.toList_append, String.toList_append]
  simp

end Trial

theorem Plan.nodup_trials {plan : Plan} (h : plan.validate = .ok ()) :
    (plan.trials.map Trial.name).Nodup := by
  obtain ⟨hmappings, hpatterns⟩ := Plan.nodup_names h
  simp only [List.Nodup, List.pairwise_map] at hmappings hpatterns ⊢
  rw [Plan.trials, List.pairwise_flatMap]
  constructor
  · intro m _
    rw [List.pairwise_map]
    exact hpatterns.imp fun hne heq => hne (Trial.name_inj.mp heq).2
  · refine hmappings.imp ?_
    intro m n hne t ht u hu heq
    obtain ⟨p, -, rfl⟩ := List.mem_map.mp ht
    obtain ⟨q, -, rfl⟩ := List.mem_map.mp hu
    exact hne (Trial.name_inj.mp heq).1

namespace Mapping

/-- Where the directory of a mapping is. -/
def place (m : Mapping) (outputDir : Path) : Place :=
  outputDir.place ++ [m.name]

theorem place_directory (m : Mapping) (outputDir : Path) :
    (m.directory outputDir).place = m.place outputDir :=
  Path.place_join m.isName

/-- Directories of mappings with different names have no place in common. -/
theorem name_eq_of_place {m n : Mapping} {outputDir : Path} {q : Place}
    (hm : m.place outputDir <+: q) (hn : n.place outputDir <+: q) : m.name = n.name := by
  have hlength : (m.place outputDir).length = (n.place outputDir).length := by simp [place]
  have hbelow := List.prefix_of_prefix_length_le hm hn (Nat.le_of_eq hlength)
  have heq := hbelow.eq_of_length hlength
  simpa [place] using heq

end Mapping

namespace Trial

/-- Where the directory of a trial is. -/
def place (t : Trial) (outputDir : Path) : Place :=
  t.mapping.place outputDir ++ [t.pattern.name]

theorem place_dir (t : Trial) (outputDir : Path) :
    (TrialPaths.ofTrial outputDir t).dir.place = t.place outputDir := by
  rw [place, ← t.mapping.place_directory]
  exact Path.place_join t.pattern.isName

theorem length_place (t : Trial) (outputDir : Path) :
    (t.place outputDir).length = outputDir.place.length + 2 := by
  simp [place, Mapping.place]

theorem isName_config (t : Trial) : IsName (t.pattern.name ++ ".yaml") :=
  t.pattern.isName.append (by decide) (by decide)

theorem place_config (t : Trial) (outputDir : Path) :
    (TrialPaths.ofTrial outputDir t).config.place =
      t.place outputDir ++ [t.pattern.name ++ ".yaml"] := by
  rw [← t.place_dir]
  exact Path.place_join t.isName_config

/-- Directories of trials with different names have no place in common. -/
theorem not_prefix_of_ne {t u : Trial} (h : t.name ≠ u.name) {outputDir : Path} {q : Place}
    (ht : t.place outputDir <+: q) : ¬ u.place outputDir <+: q := by
  intro hu
  apply h
  have hprefix : t.place outputDir <+: u.place outputDir :=
    List.prefix_of_prefix_length_le ht hu (Nat.le_of_eq (by rw [length_place, length_place]))
  have heq : t.place outputDir = u.place outputDir :=
    hprefix.eq_of_length (by rw [length_place, length_place])
  simp only [place, Mapping.place, List.append_assoc, List.append_cancel_left_eq] at heq
  simp only [List.cons_append, List.nil_append, List.cons.injEq, and_true] at heq
  exact name_inj.mpr heq

/-- Files of the sweep itself lie in no trial's directory. -/
theorem not_prefix_output (t : Trial) (outputDir : Path) (name : String) :
    ¬ t.place outputDir <+: outputDir.place ++ [name] := by
  intro h
  have hlength := h.length_le
  rw [length_place, List.length_append, List.length_singleton] at hlength
  omega

end Trial
end MappingSweep
